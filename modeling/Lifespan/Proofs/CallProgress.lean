import Lifespan.Proofs.Straight
import Lifespan.Proofs.Telling

-- A call as its thread goes through it, whatever the others do meanwhile. That it has gone so when it is answered, and
-- that it can go so, are shown alike: by what the thread does next, and by what comes back to it of the calls on its way.
namespace Lifespan
variable {C : Client}

namespace System
variable {first last before after system : System C} {thread : Thread C} {me : ThreadId} {base below lower : List (Frame C)} {frame : Frame C}
  {focus : Focus C} {done : List (Item C)} {calls : Code C → Prop} {P Q : System C → Prop} {leads : (System C → Prop) → System C → Prop}
  {registry : RegistryRef} {event : Event} {code : Code C} {move : Move C}

theorem awaits_done (answered : before.Answered me base) (waits : Awaits me base before after) : after = before := by
  induction waits with
  | refl => rfl
  | step _ unanswered _ ih => exact absurd (ih ▸ answered) unanswered

theorem runs_doneBy (onward : Runs before after) (me : ThreadId) : ∃ more, after.world.doneBy me = before.world.doneBy me ++ more := by
  induction onward with
  | refl => exact ⟨[], (List.append_nil _).symm⟩
  | step _ next ih =>
    obtain ⟨more, same⟩ := ih
    cases step_change next with
    | @turn other _ move => exact ⟨more ++ _, by rw [perform, record_doneBy, apply_doneBy, same, List.append_assoc]⟩
    | _ => exact ⟨more, same⟩

theorem runs_listed (onward : Runs before after) (known : registry < before.world.registries.length) :
    registry < after.world.registries.length := by
  induction onward with
  | refl => exact known
  | step _ next ih =>
    cases step_change next with
    | turn => exact Nat.lt_of_lt_of_le ih (registries_grow _ _)
    | _ => exact ih

structure Stood (first : System C) (me : ThreadId) (base : List (Frame C)) (system : System C) (thread : Thread C) (done : List (Item C)) :
    Prop where
  came : Awaits me base first system
  running : system.threads[me]? = some thread
  history : system.world.doneBy me = done

theorem Stood.away (here : Stood first me base system thread done) (away : ∀ exit : Exit C, thread ≠ ⟨exit.focus, base⟩) :
    ¬system.Answered me base := by
  rintro ⟨exit, answered⟩
  exact away exit (Option.some.inj (here.running.symm.trans answered))

theorem Stood.moves (here : Stood first me base system thread done) (away : ∀ exit : Exit C, thread ≠ ⟨exit.focus, base⟩)
    (busy : thread.focus.rests = false) (moves : thread.next system.world me = some move) :
    system.advance me = some (system.perform me move) ∧
      Stood first me base (system.perform me move) ⟨move.focus, move.frames⟩ (done ++ move.items) := by
  have moved : system.advance me = some (system.perform me move) := by
    rw [advance_next here.running busy, moves]
    rfl
  refine ⟨moved, here.came.step (here.away away) (.thread me moved),
    List.getElem?_set_self (List.getElem?_eq_some_iff.mp here.running).1, ?_⟩
  rw [perform, record_doneBy, apply_doneBy, here.history, if_pos rfl]

theorem Stood.still (here : Stood first me base system thread done) (away : ∀ exit : Exit C, thread ≠ ⟨exit.focus, base⟩)
    (busy : thread.focus.rests = false) (next : Step system after) :
    system.advance me = some after ∨ Stood first me base after thread done := by
  refine (step_apart next here.running busy).imp_right fun ⟨still, silent⟩ => ?_
  exact ⟨here.came.step (here.away away) next, still, silent.trans here.history⟩

-- How one speaks of what a thread comes to.
structure Passage (first : System C) (me : ThreadId) (base : List (Frame C)) (calls : Code C → Prop)
    (leads : (System C → Prop) → System C → Prop) : Prop where
  here : ∀ {Q system}, Q system → leads Q system
  goes : ∀ {P Q system}, leads P system → (∀ later, P later → leads Q later) → leads Q system
  moves : ∀ {system thread done}, Stood first me base system thread done → (∀ exit : Exit C, thread ≠ ⟨exit.focus, base⟩) →
    thread.focus.rests = false → (∀ before, Stood first me base before thread done → ∃ move, thread.next before.world me = some move) →
    leads (fun after => ∃ before move, Stood first me base before thread done ∧ thread.next before.world me = some move ∧
      Stood first me base after ⟨move.focus, move.frames⟩ (done ++ move.items)) system
  returns : ∀ {system code frame below done}, Stood first me base system ⟨.run code, frame :: below⟩ done → base <:+ below → calls code →
    frame.building? = none → leads (fun back => ∃ exit inside, Stood first me base back ⟨Exit.focus exit, frame :: below⟩ (done ++ inside) ∧
      Awaits me (frame :: below) system back) system

theorem awaits_inner (running : before.threads[me]? = some ⟨focus, frame :: below⟩) (suffix : base <:+ below) (plain : frame.building? = none)
    (inner : Awaits me (frame :: below) before after) :
    (∃ focus upper, after.threads[me]? = some ⟨focus, upper ++ frame :: below⟩) ∧ (¬after.Answered me base) := by
  obtain ⟨thread, running, focus, upper, rfl⟩ := awaits_keep
    (P := fun _ thread => ∃ focus upper, thread = ⟨focus, upper ++ frame :: below⟩) running ⟨focus, [], rfl⟩
    (fun _ _ _ _ _ same => same)
    (by
      rintro _ _ other _ _ ⟨_, upper, same⟩
      cases same
      exact ⟨other, upper, rfl⟩)
    (by
      rintro _ _ move _ turn _ ⟨focus, upper, rfl⟩ unanswered
      rcases turn.onto plain with ⟨more, same⟩ | ⟨rfl, exit, rfl⟩
      · exact ⟨move.focus, more, by rw [same]⟩
      · exact absurd rfl (unanswered exit)) inner
  refine ⟨⟨focus, upper, running⟩, ?_⟩
  rintro ⟨exit, answered⟩
  have same := congrArg List.length (congrArg Thread.frames (Option.some.inj (running.symm.trans answered)))
  have shorter := suffix.length_le
  simp only [List.length_append, List.length_cons] at same
  omega

theorem Stood.within (here : Stood first me base system ⟨focus, frame :: below⟩ done) (suffix : base <:+ below)
    (plain : frame.building? = none) (inner : Awaits me (frame :: below) system after) : Awaits me base first after := by
  induction inner with
  | refl => exact here.came
  | step inner _ next ih => exact ih.step (awaits_inner here.running suffix plain inner).2 next

theorem Stood.back {exit : Exit C} (here : Stood first me base system ⟨focus, frame :: below⟩ done) (suffix : base <:+ below)
    (plain : frame.building? = none) (inner : Awaits me (frame :: below) system after)
    (answered : after.threads[me]? = some ⟨exit.focus, frame :: below⟩) :
    ∃ inside, Stood first me base after ⟨exit.focus, frame :: below⟩ (done ++ inside) := by
  obtain ⟨inside, same⟩ := runs_doneBy inner.runs me
  exact ⟨inside, here.within suffix plain inner, answered, by rw [same, here.history]⟩

theorem answered_passage (answered : last.Answered me base) :
    Passage first me base calls fun Q system => Awaits me base system last → ∃ later, Q later ∧ Awaits me base later last where
  here holds onward := ⟨_, holds, onward⟩
  goes comes follows onward := by
    obtain ⟨later, holds, onward⟩ := comes onward
    exact follows later holds onward
  moves {system thread done} here away busy _ onward := by
    suffices ends : Stood first me base last thread done ∨ ∃ later, (∃ before move, Stood first me base before thread done ∧
        thread.next before.world me = some move ∧ Stood first me base later ⟨move.focus, move.frames⟩ (done ++ move.items)) ∧
        Awaits me base later last from ends.resolve_left fun still => still.away away answered
    clear answered
    induction onward with
    | refl => exact .inl here
    | @step before after onward unanswered next ih =>
      rcases ih with still | ⟨later, comes, onward⟩
      · refine (still.still away busy next).symm.imp_right fun moved => ⟨after, ?_, .refl⟩
        obtain ⟨move, moves, same⟩ := Option.map_eq_some_iff.mp ((advance_next still.running busy).symm.trans moved)
        exact ⟨before, move, still, moves, same ▸ (still.moves away busy moves).2⟩
      · exact .inr ⟨later, comes, onward.step unanswered next⟩
  returns {system code frame below done} here suffix _ plain onward := by
    suffices ends : Awaits me (frame :: below) system last ∨ ∃ later, (∃ exit inside,
        Stood first me base later ⟨Exit.focus exit, frame :: below⟩ (done ++ inside) ∧ Awaits me (frame :: below) system later) ∧
        Awaits me base later last from ends.resolve_left fun inner => (awaits_inner here.running suffix plain inner).2 answered
    clear answered
    induction onward with
    | refl => exact .inl .refl
    | @step before after onward unanswered next ih =>
      rcases ih with inner | ⟨later, comes, onward⟩
      · by_cases back : before.Answered me (frame :: below)
        · obtain ⟨exit, answers⟩ := back
          obtain ⟨inside, stood⟩ := here.back suffix plain inner answers
          exact .inr ⟨before, ⟨exit, inside, stood, inner⟩, .step .refl unanswered next⟩
        · exact .inl (inner.step back next)
      · exact .inr ⟨later, comes, onward.step unanswered next⟩

-- Whenever this is called on the way, it can come back.
def Returns (first : System C) (me : ThreadId) (base : List (Frame C)) (code : Code C) : Prop :=
  ∀ system frame below, Awaits me base first system → system.threads[me]? = some ⟨.run code, frame :: below⟩ → base <:+ below →
    ∃ back, Awaits me (frame :: below) system back ∧ back.Answered me (frame :: below)

theorem returning_passage : Passage first me base (Returns first me base) fun Q _ => ∃ later, Q later where
  here holds := ⟨_, holds⟩
  goes comes follows := by
    obtain ⟨later, holds⟩ := comes
    exact follows later holds
  moves here away busy next := by
    obtain ⟨move, moves⟩ := next _ here
    exact ⟨_, _, move, here, moves, (here.moves away busy moves).2⟩
  returns here suffix returns plain := by
    obtain ⟨back, inner, exit, answers⟩ := returns _ _ _ here.came here.running suffix
    obtain ⟨inside, stood⟩ := here.back suffix plain inner answers
    exact ⟨back, exit, inside, stood, inner⟩

def Calm (first : System C) (me : ThreadId) (base : List (Frame C)) (registry : RegistryRef) : Prop :=
  ∀ system panic event below, Awaits me base first system → base <:+ below →
    system.threads[me]? ≠ some ⟨.unwind panic, .delivering registry event :: below⟩

def Listens (first : System C) (me : ThreadId) (base : List (Frame C)) (calls : Code C → Prop) (registry : RegistryRef) : Prop :=
  ∀ system cell listener, Awaits me base first system → system.world.registries[registry]? = some cell → cell.listener = some listener →
    ∀ event, calls (listener event)

structure Heard (first : System C) (me : ThreadId) (base : List (Frame C)) (calls : Code C → Prop) (registry : RegistryRef) : Prop where
  known : registry < first.world.registries.length
  calm : Calm first me base registry
  listens : Listens first me base calls registry

section
variable (passage : Passage first me base calls leads)
include passage

theorem Passage.sure (here : Stood first me base system thread done) (away : ∀ exit : Exit C, thread ≠ ⟨exit.focus, base⟩)
    (busy : thread.focus.rests = false) (sure : ∀ before, Stood first me base before thread done → thread.next before.world me = some move)
    (onward : ∀ after, Stood first me base after ⟨move.focus, move.frames⟩ (done ++ move.items) → leads Q after) : leads Q system := by
  refine passage.goes (passage.moves here away busy fun before stood => ⟨move, sure before stood⟩) ?_
  rintro after ⟨before, made, stood, moves, later⟩
  cases (sure before stood).symm.trans moves
  exact onward after later

theorem Passage.silent {next : Focus C} {frames : List (Frame C)} (here : Stood first me base system thread done)
    (away : ∀ exit : Exit C, thread ≠ ⟨exit.focus, base⟩) (busy : thread.focus.rests = false)
    (sure : ∀ world : World C, thread.next world me = some (.silent next frames))
    (onward : ∀ after, Stood first me base after ⟨next, frames⟩ done → leads Q after) : leads Q system :=
  passage.sure here away busy (fun before _ => sure before.world) fun after later => onward after (List.append_nil done ▸ later)

theorem Passage.changing {effect : Effect C} {next : Focus C} {frames : List (Frame C)} (here : Stood first me base system thread done)
    (away : ∀ exit : Exit C, thread ≠ ⟨exit.focus, base⟩) (busy : thread.focus.rests = false)
    (sure : ∀ world : World C, thread.next world me = some (.changing effect next frames))
    (onward : ∀ after, Stood first me base after ⟨next, frames⟩ done → leads Q after) : leads Q system :=
  passage.sure here away busy (fun before _ => sure before.world) fun after later => onward after (List.append_nil done ▸ later)

theorem Passage.tells (audience : Heard first me base calls registry) (suffix : base <:+ lower)
    (here : Stood first me base system ⟨.emit registry event, frame :: lower⟩ done)
    (onward : ∀ after heard, Stood first me base after ⟨.back .done, frame :: lower⟩ (done ++ .emitted registry event :: heard) →
      leads Q after) :
    leads Q system := by
  have listed (before : System C) (came : Awaits me base first before) : ∃ cell, before.world.registries[registry]? = some cell :=
    ⟨_, List.getElem?_eq_getElem (runs_listed came.runs audience.known)⟩
  have deep : base <:+ frame :: lower := suffix.trans (List.suffix_cons _ _)
  have away (focus : Focus C) (exit : Exit C) : Thread.mk focus (frame :: lower) ≠ ⟨exit.focus, base⟩ :=
    fun same => suffix_ne suffix (congrArg Thread.frames same)
  refine passage.goes (passage.moves here (away _) rfl fun before stood => ?_) ?_
  · obtain ⟨cell, found⟩ := listed before stood.came
    exact ⟨_, by simp only [Thread.next, Move.emit, found]; rfl⟩
  rintro after ⟨before, move, stood, moves, later⟩
  obtain ⟨telling, found⟩ := listed before stood.came
  simp only [Thread.next, Move.emit, found, Option.map_some, Option.some.injEq] at moves
  subst moves
  refine passage.goes (passage.moves later (away _) rfl fun before stood => ?_) ?_
  · obtain ⟨cell, found⟩ := listed before stood.came
    simp only [Thread.next, Move.deliver, found, Option.map_some]
    exact ⟨_, rfl⟩
  rintro there ⟨before, move, stood, moves, later⟩
  obtain ⟨cell, found⟩ := listed before stood.came
  simp only [Thread.next, Move.deliver, found, Option.map_some, Option.some.injEq] at moves
  cases listens : cell.listener with
  | none =>
    rw [listens] at moves
    subst moves
    refine onward there [.logged (.ofEvent telling.settings event)] ?_
    simpa [Move.silent] using later
  | some listener =>
    rw [listens] at moves
    subst moves
    refine passage.goes (passage.returns later deep (audience.listens before cell listener stood.came found listens event) rfl) ?_
    rintro back ⟨exit, inside, returned, _⟩
    cases exit with
    | unwind panic => exact absurd returned.running (audience.calm back panic event _ returned.came deep)
    | back reply =>
      refine passage.silent returned (fun _ same => suffix_ne deep (congrArg Thread.frames same)) rfl (fun _ => rfl) fun last comes => ?_
      refine onward last (.logged (.ofEvent telling.settings event) :: .delivered registry event :: inside) ?_
      simpa using comes

end

end System
end Lifespan
