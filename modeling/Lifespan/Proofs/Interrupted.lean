import Lifespan.Proofs.Drained
import Lifespan.Proofs.Ended
import Lifespan.Proofs.Succession

-- The end of a scope, followed from where the scope is taken out of its active state to where control
-- leaves it. Hooks cannot break it off, however they end. The listener can: a panic that comes out of it
-- when an instance has been destroyed leaves the rest of the instances as they are, and the scope half
-- destroyed for ever.
namespace Lifespan
variable {C : Client}

def Event.destruction? : Event → Option ScopeId
  | destroyed scope _ | destroyFailed scope _ => some scope
  | _ => none

-- After so much of the history, a listener that was told of the destruction of an instance has panicked.
def World.interrupted (world : World C) (past : Nat) (scope : ScopeRef) : Prop :=
  ∃ event : Event, event.destruction? = some scope.id ∧
    .listenerPanicked scope.registry event ∈ world.chronicle.drop past

theorem World.interrupted.shaken {world : World C} {past : Nat} {scope : ScopeRef} (interrupted : world.interrupted past scope) : world.shaken :=
  let ⟨event, _, heard⟩ := interrupted
  ⟨scope.registry, event, (List.drop_subset _ _) heard⟩

def Exit.Settled (world : World C) (past : Nat) (scope : ScopeRef) (exit : Exit C) : Prop :=
  (world.cell scope).state = .destroyed ∨ exit.isReply = false ∧ world.interrupted past scope

-- How far the end has come, by what stands above the frames that it returns to.
inductive Closing (world : World C) (past : Nat) (registry : RegistryRef) (scope : ScopeRef) (base : List (Frame C)) :
    Thread C → Prop
  | waits : Closing world past registry scope base ⟨.exclude scope, .ended registry scope :: base⟩
  | empties : Closing world past registry scope base ⟨.empty scope, .ended registry scope :: base⟩
  | clears : Closing world past registry scope base ⟨.clear scope entries, .ended registry scope :: base⟩
  | tears (mine : teardown.scope = scope) :
      Closing world past registry scope base ⟨.tear teardown, .torn scope :: .ended registry scope :: base⟩
  | hooks (mine : teardown.scope = scope) (upper : List (Frame C)) : Closing world past registry scope base
      ⟨focus, upper ++ .hooked teardown key :: .torn scope :: .ended registry scope :: base⟩
  | emits (mine : teardown.scope = scope) (about : event.destruction? = some scope.id) :
      Closing world past registry scope base
        ⟨.emit scope.registry event, .reported teardown :: .torn scope :: .ended registry scope :: base⟩
  | delivers (mine : teardown.scope = scope) (about : event.destruction? = some scope.id) :
      Closing world past registry scope base
        ⟨.deliver scope.registry event, .reported teardown :: .torn scope :: .ended registry scope :: base⟩
  | hears (mine : teardown.scope = scope) (about : event.destruction? = some scope.id) (upper : List (Frame C)) :
      Closing world past registry scope base ⟨focus,
        upper ++ .delivering scope.registry event :: .reported teardown :: .torn scope :: .ended registry scope :: base⟩
  | reports (mine : teardown.scope = scope) (exit : Exit C) (cut : exit.isReply = false → world.interrupted past scope) :
      Closing world past registry scope base
        ⟨exit.focus, .reported teardown :: .torn scope :: .ended registry scope :: base⟩
  | tore (exit : Exit C) (cut : exit.isReply = false → world.interrupted past scope) :
      Closing world past registry scope base ⟨exit.focus, .torn scope :: .ended registry scope :: base⟩
  | settles : Closing world past registry scope base ⟨.settle scope failures, .ended registry scope :: base⟩
  | marks : Closing world past registry scope base ⟨.mark scope failures, .ended registry scope :: base⟩
  | closes (destroyed : (world.cell scope).state = .destroyed) (upper : List (Frame C)) :
      Closing world past registry scope base ⟨focus, upper ++ .closed scope failures :: .ended registry scope :: base⟩
  | reopens (exit : Exit C) (settled : exit.Settled world past scope) :
      Closing world past registry scope base ⟨.reopen scope exit, .ended registry scope :: base⟩
  | came (exit : Exit C) (settled : exit.Settled world past scope) :
      Closing world past registry scope base ⟨exit.focus, .ended registry scope :: base⟩
  | forgets (destroyed : (world.cell scope).state = .destroyed) :
      Closing world past registry scope base ⟨.forget registry scope reply, base⟩
  | leaves (exit : Exit C) (settled : exit.Settled world past scope) : Closing world past registry scope base ⟨exit.focus, base⟩

section
variable {world later : World C} {past : Nat} {registry : RegistryRef} {scope : ScopeRef} {base : List (Frame C)}
  {thread : Thread C} {move : Move C} {me : ThreadId} {exit : Exit C}

theorem Exit.Settled.mono (keeps : (world.cell scope).state = .destroyed → (later.cell scope).state = .destroyed)
    (grows : world.interrupted past scope → later.interrupted past scope) (settled : exit.Settled world past scope) :
    exit.Settled later past scope :=
  settled.imp keeps (And.imp_right grows)

theorem Closing.mono (keeps : (world.cell scope).state = .destroyed → (later.cell scope).state = .destroyed)
    (grows : world.interrupted past scope → later.interrupted past scope)
    (closing : Closing world past registry scope base thread) : Closing later past registry scope base thread := by
  cases closing with
  | waits => exact .waits
  | empties => exact .empties
  | clears => exact .clears
  | tears mine => exact .tears mine
  | hooks mine upper => exact .hooks mine upper
  | emits mine about => exact .emits mine about
  | delivers mine about => exact .delivers mine about
  | hears mine about upper => exact .hears mine about upper
  | reports mine exit cut => exact .reports mine exit (grows ∘ cut)
  | tore exit cut => exact .tore exit (grows ∘ cut)
  | settles => exact .settles
  | marks => exact .marks
  | closes destroyed upper => exact .closes (keeps destroyed) upper
  | reopens exit settled => exact .reopens exit (settled.mono keeps grows)
  | came exit settled => exact .came exit (settled.mono keeps grows)
  | forgets destroyed => exact .forgets (keeps destroyed)
  | leaves exit settled => exact .leaves exit (settled.mono keeps grows)

theorem outcome_about (teardown : Teardown) (key : String) : (teardown.outcome key).destruction? = some teardown.scope.id := by
  unfold Teardown.outcome
  split <;> rfl

theorem hooked_closing {teardown : Teardown} (mine : teardown.scope = scope) (key : String) (exit : Exit C) :
    Closing world past registry scope base
      ⟨(Move.hooked teardown key exit (.torn scope :: .ended registry scope :: base)).focus,
        (Move.hooked teardown key exit (.torn scope :: .ended registry scope :: base)).frames⟩ := by
  subst mine
  unfold Move.hooked
  cases teardown.phase with
  | beforeDestroy => exact .tears rfl
  | destroy => exact .emits rfl (outcome_about (teardown.record _) key)

theorem Turn.closing (turn : Turn world me thread move) (closing : Closing later past registry scope base thread)
    (unanswered : ∀ exit : Exit C, thread ≠ ⟨exit.focus, base⟩)
    (marked : move.effect = .mark scope → (later.cell scope).state = .destroyed)
    (heard : ∀ item ∈ move.items, item ∈ later.chronicle.drop past) :
    Closing later past registry scope base ⟨move.focus, move.frames⟩ := by
  cases closing with
  | waits => cases turn; exact .empties
  | empties => cases turn; exact .clears
  | clears => cases turn; exact .tears rfl
  | tears mine =>
    cases turn with
    | turnsBack => exact .tears mine
    | tearsDown => exact .tore (.back _) nofun
    | warns | destroys => exact .hooks (by exact mine) []
  | hooks mine upper =>
    rcases turn.onto rfl with ⟨more, same⟩ | ⟨rfl, exit, rfl⟩
    · rw [same]
      exact .hooks mine more
    · cases exit with
      | back reply => cases turn; exact hooked_closing mine _ _
      | unwind panic =>
        cases turn with
        | unwindHooked => exact hooked_closing mine _ _
        | unwindBuilding building => cases building
        | unwindEnding ending => cases ending
        | unwindOther passive => cases passive
  | emits mine about => cases turn; exact .delivers mine about
  | delivers mine about =>
    cases turn with
    | unheard => exact .reports mine (.back .done) nofun
    | hears => exact .hears mine about []
  | hears mine about upper =>
    rcases turn.onto rfl with ⟨more, same⟩ | ⟨rfl, exit, rfl⟩
    · rw [same]
      exact .hears mine about more
    · cases exit with
      | back reply => cases turn; exact .reports mine (.back .done) nofun
      | unwind panic =>
        cases turn with
        | unwindDelivering =>
          exact .reports mine (.unwind panic) fun _ => ⟨_, about, heard _ (List.mem_singleton.mpr rfl)⟩
        | unwindBuilding building => cases building
        | unwindEnding ending => cases ending
        | unwindOther passive => cases passive
  | reports mine exit cut =>
    cases exit with
    | back reply => cases turn; exact .tears mine
    | unwind panic =>
      cases turn.passes rfl
      exact .tore (.unwind panic) cut
  | tore exit cut =>
    cases exit with
    | back reply => cases turn; exact .settles
    | unwind panic =>
      cases turn.flees rfl
      exact .reopens (.unwind panic) (.inr ⟨rfl, cut rfl⟩)
  | settles => cases turn; exact .marks
  | marks => cases turn; exact .closes (marked rfl) []
  | closes destroyed upper =>
    rcases turn.onto rfl with ⟨more, same⟩ | ⟨rfl, exit, rfl⟩
    · rw [same]
      exact .closes destroyed more
    · cases exit with
      | back reply => cases turn; exact .reopens (.back _) (.inl destroyed)
      | unwind panic =>
        cases turn.flees rfl
        exact .reopens (.unwind panic) (.inl destroyed)
  | reopens exit settled => cases turn; exact .came exit settled
  | came exit settled =>
    cases exit with
    | back reply =>
      have destroyed := settled.resolve_right fun flees => by cases flees.1
      cases turn with
      | backEndedUnknown => exact .leaves (.back _) settled
      | backEnded => exact .forgets destroyed
    | unwind panic =>
      cases turn.passes rfl
      exact .leaves (.unwind panic) settled
  | forgets destroyed => cases turn; exact .leaves (.back _) (.inl destroyed)
  | leaves exit => exact absurd rfl (unanswered exit)

theorem Closing.refocus {focus other : Focus C} {frames : List (Frame C)} (rests : focus.rests = true)
    (closing : Closing world past registry scope base ⟨focus, frames⟩) :
    Closing world past registry scope base ⟨other, frames⟩ := by
  cases closing with
  | hooks mine upper => exact .hooks mine upper
  | hears mine about upper => exact .hears mine about upper
  | closes destroyed upper => exact .closes destroyed upper
  | reports _ exit | tore exit | came exit | leaves exit => cases exit <;> cases rests
  | _ => cases rests

theorem Closing.above (closing : Closing world past registry scope base thread) :
    (∃ more, thread.frames = more ++ .ended registry scope :: base) ∨ (∃ reply, thread = ⟨.forget registry scope reply, base⟩) ∨
      ∃ exit : Exit C, exit.Settled world past scope ∧ thread = ⟨exit.focus, base⟩ := by
  cases closing with
  | waits | empties | clears | settles | marks | reopens | came => exact .inl ⟨[], rfl⟩
  | tears | tore => exact .inl ⟨[.torn scope], rfl⟩
  | hooks mine upper => exact .inl ⟨upper ++ [_, _], (List.append_assoc upper [_, _] _).symm⟩
  | emits | delivers | reports => exact .inl ⟨[_, .torn scope], rfl⟩
  | hears mine about upper => exact .inl ⟨upper ++ [_, _, _], (List.append_assoc upper [_, _, _] _).symm⟩
  | closes destroyed upper => exact .inl ⟨upper ++ [_], (List.append_assoc upper [_] _).symm⟩
  | forgets => exact .inr (.inl ⟨_, rfl⟩)
  | leaves exit settled => exact .inr (.inr ⟨exit, settled, rfl⟩)

-- Before control leaves the end, its thread is at the teardown of the scope, or the fate of the scope is settled.
theorem Closing.stands (closing : Closing world past registry scope base thread) :
    (∃ stage, (scope, stage) ∈ thread.posture.ends) ∨ (world.cell scope).state = .destroyed ∨ world.interrupted past scope := by
  have settles {exit : Exit C} (settled : exit.Settled world past scope) := settled.imp_right And.right
  have focused {focus : Focus C} {frames : List (Frame C)} {stage : Stage} (stands : focus.stage? = some (scope, stage)) :
      ∃ stage, (scope, stage) ∈ (Thread.mk focus frames).posture.ends := ⟨stage, by simp [Thread.posture, stands]⟩
  have torn {focus : Focus C} {frames : List (Frame C)} (member : .torn scope ∈ frames) :
      ∃ stage, (scope, stage) ∈ (Thread.mk focus frames).posture.ends := by
    obtain ⟨upper, stands⟩ := torn_stage focus.upper member
    exact ⟨upper.stage, List.mem_append_right _ stands⟩
  cases closing with
  | waits | empties | clears | settles | marks => exact .inl (focused rfl)
  | tears | hooks | emits | delivers | hears | reports | tore => exact .inl (torn (by simp))
  | closes destroyed => exact .inr (.inl destroyed)
  | reopens exit settled | came exit settled | leaves exit settled => exact .inr (settles settled)
  | forgets destroyed => exact .inr (.inl destroyed)

theorem Closing.answer (closing : Closing world past registry scope base ⟨exit.focus, base⟩) :
    exit.Settled world past scope := by
  rcases closing.above with ⟨more, same⟩ | ⟨reply, same⟩ | ⟨other, settled, same⟩
  · exact absurd same.symm above_ne
  · cases exit <;> cases same
  · exact exit_injective (congrArg Thread.focus same) ▸ settled

end

namespace System
variable {system start before after : System C} {program : C.Label → Code C} {memory : C.Memory} {code : Code C}
  {thread : Thread C} {past : Nat} {registry : RegistryRef} {scope : ScopeRef} {base : List (Frame C)} {me : ThreadId}
  {exit : Exit C}

theorem interrupted_grows (change : Change before after) (interrupted : before.world.interrupted past scope) :
    after.world.interrupted past scope := by
  obtain ⟨items, same⟩ := change_chronicle change
  obtain ⟨event, about, member⟩ := interrupted
  refine ⟨event, about, ?_⟩
  rw [same, List.drop_append]
  exact List.mem_append_left _ member

theorem runs_interrupted (onward : Runs before after) (interrupted : before.world.interrupted past scope) :
    after.world.interrupted past scope := by
  induction onward with
  | refl => exact interrupted
  | step _ next ih => exact interrupted_grows (step_change next) ih

theorem destroyed_stays (path : Runs (initial program memory code) before) (next : Step before after)
    (destroyed : (before.world.cell scope).state = .destroyed) : (after.world.cell scope).state = .destroyed :=
  Decidable.byContradiction fun alive => (next_life path next scope).alive alive destroyed

theorem awaits_closing (reached : Runs (initial program memory code) start)
    (ends : start.threads[me]? = some ⟨.exclude scope, .ended registry scope :: base⟩) (waits : Awaits me base start system) :
    ∃ thread, system.threads[me]? = some thread ∧ start.world.chronicle.length ≤ system.world.chronicle.length ∧
      Closing system.world start.world.chronicle.length registry scope base thread := by
  refine awaits_keep (P := fun world thread => start.world.chronicle.length ≤ world.chronicle.length ∧
    Closing world start.world.chronicle.length registry scope base thread) ends ⟨Nat.le_refl _, .waits⟩ ?_ ?_ ?_ waits
  · rintro before after thread waits next ⟨longer, closing⟩
    have change := step_change next
    obtain ⟨items, grown⟩ := change_chronicle change
    refine ⟨by rw [grown, List.length_append]; omega, ?_⟩
    exact closing.mono (destroyed_stays (reached.trans waits.runs) next) (interrupted_grows change)
  · exact fun _ _ _ _ rests closing => ⟨closing.1, closing.2.refocus rests⟩
  · rintro before thread move waits turn next ⟨longer, closing⟩ unanswered
    have grown : (before.perform me move).world.chronicle = before.world.chronicle ++ move.items := by simp [perform]
    have closing := closing.mono (destroyed_stays (reached.trans waits.runs) next) (interrupted_grows (step_change next))
    refine ⟨by rw [grown, List.length_append]; omega, turn.closing closing unanswered ?_ ?_⟩
    · intro marks
      simp only [perform, record_cell, marks]
      exact mark_cell (inactive_known ((runs_leads reached waits.runs scope).inactive (taken_inactive reached ends)))
    · intro item member
      rw [grown, List.drop_append_of_le_length longer]
      exact List.mem_append_right _ member

theorem runs_destroyed (path : Runs (initial program memory code) start) (onward : Runs start system)
    (destroyed : (start.world.cell scope).state = .destroyed) : (system.world.cell scope).state = .destroyed := by
  induction onward with
  | refl => exact destroyed
  | step onward next ih => exact destroyed_stays (path.trans onward) next ih

-- A thread that has nothing to do with the end of a scope will not have when the scope is not active any more.
theorem runs_left (path : Runs (initial program memory code) start) (onward : Runs start system)
    (inactive : (start.world.cell scope).state ≠ .active) (past : (start.life scope).ends me = []) :
    (system.life scope).ends me = [] := by
  induction onward with
  | refl => exact past
  | step onward next ih =>
    have later := (runs_leads path onward scope).inactive inactive
    exact step_left (next_life (path.trans onward) next scope) later ih

theorem left_over (reached : Runs (initial program memory code) start)
    (ends : start.threads[me]? = some ⟨.exclude scope, .ended registry scope :: base⟩) (onward : Runs start system)
    (left : system.threads[me]? = some ⟨exit.focus, base⟩) : ∀ thread, (system.life scope).ends thread = [] := by
  intro thread
  by_cases mine : thread = me
  · exact mine ▸ returned_over reached ends left
  · have member : .waiting ∈ (start.life scope).ends me := life_stage (focus_stage ends rfl)
    have orderly := (runs_lived reached scope).orderly
    have others := (orderly.owned (orderly.only member)).1.others thread mine
    exact runs_left reached onward (taken_inactive reached ends) others

theorem runs_pending (path : Runs (initial program memory code) start) (onward : Runs start system)
    (pending : (start.world.cell scope).state = .destructionPending) (past : ∀ thread, (start.life scope).ends thread = []) :
    (system.world.cell scope).state = .destructionPending ∧ ∀ thread, (system.life scope).ends thread = [] := by
  induction onward with
  | refl => exact ⟨pending, past⟩
  | @step middle after onward next ih =>
    obtain ⟨pending, past⟩ := ih
    have step := next_life (path.trans onward) next scope
    have inactive : (middle.world.cell scope).state ≠ .active := by simp [pending]
    refine ⟨?_, step_over step inactive past⟩
    rcases step.state with same | ⟨me, was, now, rest, effect, items, close, _, stood, _⟩
    · exact same.trans pending
    · obtain ⟨rfl, _⟩ := List.append_eq_nil_iff.mp (stood.symm.trans (past me))
      cases close with
      | retire active => exact absurd active inactive

theorem taken_by (path : Runs (initial program memory code) system) (inactive : (system.world.cell scope).state ≠ .active) :
    ∃ (taken : System C) (me : ThreadId) (place : RegistryRef) (base : List (Frame C)), Runs (initial program memory code) taken ∧
      taken.threads[me]? = some ⟨.exclude scope, .ended place scope :: base⟩ ∧ Runs taken system := by
  induction path with
  | refl => exact absurd rfl inactive
  | @step before after path next ih =>
    by_cases active : (before.world.cell scope).state = .active
    · cases next with
      | time => exact absurd active inactive
      | thread me moved =>
        obtain ⟨⟨focus, frames⟩, running, _⟩ := advance_cases moved
        cases (state_retires path running moved active inactive : focus = .retire scope)
        obtain ⟨place, base, rfl⟩ := ending_below ((runs_sound path _ (List.mem_of_getElem? running)).borne _ rfl)
        have reached : Runs (initial program memory code) after := .step path (.thread me moved)
        rw [advance_next running rfl] at moved
        obtain ⟨move, retires, rfl⟩ := Option.map_eq_some_iff.mp moved
        obtain ⟨cell, found, rfl⟩ := Option.map_eq_some_iff.mp retires
        have welcome : cell.isActive = true := decide_eq_true (cell_found found ▸ active)
        refine ⟨_, me, place, base, reached, ?_, .refl _⟩
        simp only [welcome, if_true]
        exact List.getElem?_set_self (List.getElem?_eq_some_iff.mp running).1
    · obtain ⟨taken, me, place, base, reached, takes, onward⟩ := ih active
      exact ⟨taken, me, place, base, reached, takes, .step onward next⟩

theorem inactive_pending (path : Runs (initial program memory code) system) (alive : system.world.isAlive scope = true)
    (inactive : system.world.isActive scope = false) : (system.world.cell scope).state = .destructionPending := by
  obtain ⟨known, lives⟩ := alive_iff.mp alive
  have idle : (system.world.cell scope).state ≠ .active := fun active => by simp [active_iff.mpr ⟨known, active⟩] at inactive
  obtain ⟨owner, ended⟩ := (runs_lived path scope).orderly
  have begun : (system.world.cell scope).state ≠ .created := ended.begun
  cases state : (system.world.cell scope).state <;> simp_all

theorem pending_interrupted (path : Runs (initial program memory code) system)
    (pending : (system.world.cell scope).state = .destructionPending) :
    (∃ me, (system.life scope).ends me ≠ []) ∨ system.world.interrupted 0 scope := by
  have inactive : (system.world.cell scope).state ≠ .active := by simp [pending]
  obtain ⟨taken, me, place, base, reached, takes, onward⟩ := taken_by path inactive
  have since {past : Nat} : system.world.interrupted past scope → system.world.interrupted 0 scope :=
    fun ⟨event, about, heard⟩ => ⟨event, about, (List.drop_subset _ _) heard⟩
  rcases runs_awaits onward me base with waits | ⟨answered, waits, ⟨exit, left⟩, later⟩
  · obtain ⟨thread, running, _, closing⟩ := awaits_closing reached takes waits
    rcases closing.stands with ⟨stage, stands⟩ | destroyed | interrupted
    · have stands : (scope, stage) ∈ (system.posture me).ends := posture_found running ▸ stands
      exact .inl ⟨me, List.ne_nil_of_mem (life_stage stands)⟩
    · cases pending.symm.trans destroyed
    · exact .inr (since interrupted)
  · obtain ⟨thread, running, _, closing⟩ := awaits_closing reached takes waits
    cases left.symm.trans running
    rcases closing.answer with destroyed | ⟨_, interrupted⟩
    · cases pending.symm.trans (runs_destroyed (reached.trans waits.runs) later destroyed)
    · exact .inr (since (runs_interrupted later interrupted))

def Reopened (system : System C) (scope : ScopeRef) : Prop :=
  ∀ you next frames, system.threads[you]? = some ⟨.run (.call (.begin scope.registry scope.id) next), frames⟩ →
    (∃ other, other ≠ scope ∧ system.world.isAlive other = true ∧ other.registry = scope.registry ∧
      other.id.SharesPlace scope.id) ∨
    ∃ after, system.advance you = some after ∧
      after.world.isActive (system.world.nextScope scope.registry scope.id) = true ∧
      ∀ later reply, Awaits you (.user next :: frames) after later →
        later.threads[you]? = some ⟨.back reply, .user next :: frames⟩ →
        reply = .scope (system.world.nextScope scope.registry scope.id)

def Barred (system : System C) (scope : ScopeRef) : Prop :=
  ∀ you next frames, system.threads[you]? = some ⟨.run (.call (.begin scope.registry scope.id) next), frames⟩ →
    system.advance you = some ⟨record system.world you [.called (.begin scope.registry scope.id)],
      system.threads.set you ⟨.back (.fault (.duplicate scope.id)), .user next :: frames⟩⟩

theorem destroyed_reopened (path : Runs (initial program memory code) system)
    (destroyed : (system.world.cell scope).state = .destroyed) : system.Reopened scope := by
  intro you next frames running
  have inactive : (system.world.cell scope).state ≠ .active := by simp [destroyed]
  have known := registry_known path (inactive_known inactive)
  by_cases held : (system.world.occupant scope.registry scope.id).any system.world.isAlive = true
  · obtain ⟨other, alive, mine, shares⟩ := (runs_filed path).taken.mp held
    refine .inl ⟨other, ?_, alive, mine, shares⟩
    rintro rfl
    exact (alive_iff.mp alive).2 destroyed
  · exact .inr (begin_admitted running known (Bool.eq_false_iff.mpr held))

theorem pending_barred (path : Runs (initial program memory code) system)
    (pending : (system.world.cell scope).state = .destructionPending) : system.Barred scope := by
  intro you next frames running
  have inactive : (system.world.cell scope).state ≠ .active := by simp [pending]
  have present := inactive_known inactive
  have alive : system.world.isAlive scope = true := alive_iff.mpr ⟨present, by simp [pending]⟩
  exact begin_refused running (registry_known path present)
    ((runs_filed path).taken.mpr ⟨scope, alive, rfl, scope.id.sharesPlace_refl⟩)

-- When control leaves the end of a scope, the scope is destroyed and every instance it stored has had its
-- hook run; or a panic has come out of the listener as it was told of the destruction of an instance, and
-- then control leaves by that panic, and the scope is never destroyed nor its identity begun again.
theorem end_left (reached : Runs (initial program memory code) start)
    (ends : start.threads[me]? = some ⟨.exclude scope, .ended registry scope :: base⟩)
    (waits : Awaits me base start system) (left : system.threads[me]? = some ⟨exit.focus, base⟩) :
    ((system.world.cell scope).state = .destroyed ∧
      (∀ one ∈ system.world.stored scope, .hook (.destroy one.2) ∈ system.world.chronicle) ∧
      ∀ later, Runs system later → later.Reopened scope) ∨
    (exit.isReply = false ∧ system.world.interrupted start.world.chronicle.length scope ∧
      ∀ later, Runs system later → (later.world.cell scope).state = .destructionPending ∧ later.Barred scope) := by
  obtain ⟨thread, running, _, closing⟩ := awaits_closing reached ends waits
  cases left.symm.trans running
  have path := reached.trans waits.runs
  by_cases destroyed : (system.world.cell scope).state = .destroyed
  · refine .inl ⟨destroyed, destroyed_all path destroyed, fun later onward => ?_⟩
    exact destroyed_reopened (path.trans onward) (runs_destroyed path onward destroyed)
  · obtain ⟨flees, interrupted⟩ := closing.answer.resolve_left destroyed
    refine .inr ⟨flees, interrupted, fun later onward => ?_⟩
    have inactive := (runs_leads reached waits.runs scope).inactive (taken_inactive reached ends)
    have pending : (system.world.cell scope).state = .destructionPending := by
      obtain ⟨owner, ended⟩ := (runs_lived path scope).orderly
      have begun : (system.world.cell scope).state ≠ .created := ended.begun
      have inactive : (system.world.cell scope).state ≠ .active := inactive
      cases state : (system.world.cell scope).state <;> simp_all
    obtain ⟨still, _⟩ := runs_pending path onward pending (left_over reached ends waits.runs left)
    exact ⟨still, pending_barred (path.trans onward) still⟩

def beginAgain : Reply ⟨Unit, Unit, Unit, Unit⟩ → Code ⟨Unit, Unit, Unit, Unit⟩ :=
  fun _ => .call (.begin 0 ⟨.session, "a"⟩) fun _ => .done

def endingCut : System ⟨Unit, Unit, Unit, Unit⟩ :=
  initial (fun _ => .done) () <| .call (.establish {}) fun _ =>
    .listen 0 (fun event => match event with | .destroyed _ _ => .panic ⟨"no"⟩ | _ => .done) <|
    .call (.begin 0 ⟨.session, "a"⟩) fun _ =>
    .resolve ⟨⟨0, ⟨.session, "a"⟩, 0⟩, "only", "Only"⟩ (fun _ => .built () ⟨fun _ => .done, fun _ => .done, .done⟩) fun _ =>
    .call (.finish 0 ⟨.session, "a"⟩) beginAgain

theorem cut_for_ever : (run 18 (run 35 endingCut)).threads[0]? = some ⟨.unwind ⟨"no"⟩, [.user beginAgain]⟩ ∧
    ∀ later, Runs (run 18 (run 35 endingCut)) later →
      (later.world.cell ⟨0, ⟨.session, "a"⟩, 0⟩).state = .destructionPending ∧ later.Barred ⟨0, ⟨.session, "a"⟩, 0⟩ := by
  have ends : (run 35 endingCut).threads[0]? =
      some ⟨.exclude ⟨0, ⟨.session, "a"⟩, 0⟩, [.ended 0 ⟨0, ⟨.session, "a"⟩, 0⟩, .user beginAgain]⟩ := rfl
  have left : (run 18 (run 35 endingCut)).threads[0]? = some ⟨(Exit.unwind ⟨"no"⟩).focus, [.user beginAgain]⟩ := rfl
  have pending : ((run 18 (run 35 endingCut)).world.cell ⟨0, ⟨.session, "a"⟩, 0⟩).state ≠ .destroyed := by decide
  have waits : Awaits 0 [.user beginAgain] (run 35 endingCut) (run 18 (run 35 endingCut)) := awaits_run 18 1 rfl (by decide)
  exact ⟨rfl, ((end_left (run_runs 35 endingCut) ends waits left).resolve_left fun done => pending done.1).2.2⟩

theorem cut_short : ∃ start left later frames, Runs endingCut start ∧
    start.threads[0]? =
      some ⟨.exclude ⟨0, ⟨.session, "a"⟩, 0⟩, [.ended 0 ⟨0, ⟨.session, "a"⟩, 0⟩, .user beginAgain]⟩ ∧
    Runs start left ∧ left.threads[0]? = some ⟨.unwind ⟨"no"⟩, [.user beginAgain]⟩ ∧
    (left.world.cell ⟨0, ⟨.session, "a"⟩, 0⟩).state = .destructionPending ∧
    Runs left later ∧ later.threads[0]? = some ⟨.back (.fault (.duplicate ⟨.session, "a"⟩)), frames⟩ :=
  ⟨run 35 endingCut, run 18 (run 35 endingCut), run 2 (run 18 (run 35 endingCut)), _, run_runs 35 endingCut, rfl,
    run_runs 18 _, rfl, by decide, run_runs 2 _, rfl⟩

end System
end Lifespan
