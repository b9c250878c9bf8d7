import Lifespan.Proofs.Apart
import Lifespan.Proofs.Grammar

-- What happens to a task while others go on: nothing that it could tell. Everybody keeps to what is his.
namespace Lifespan
variable {C : Client} {division : Division C} {me other : ThreadId} {world one two three : World C} {items : List (Item C)}
  {effect : Effect C} {event : Event} {frames : List (Frame C)} {program : C.Label → Code C} {move : Move C} {thread here there : Thread C}

def Item.isAside (division : Division C) : Item C → Bool
  | .note written => division.aside written
  | _ => false

def World.doings (world : World C) (division : Division C) (me : ThreadId) : List (Item C) :=
  (world.history.reverse.filter fun one => one.1 == me && !one.2.isAside division).map Prod.snd

theorem record_doings : (System.record world other items).doings division me =
    world.doings division me ++ if other = me then items.filter fun item => !item.isAside division else [] := by
  have split : ∀ items : List (Item C), ((items.map (Prod.mk other)).filter fun one => one.1 == me && !one.2.isAside division).map Prod.snd =
      if other = me then items.filter fun item => !item.isAside division else [] := by
    intro items
    by_cases same : other = me
    · simp [same, List.filter_map, Function.comp_def]
    · simp [same, List.filter_map, Function.comp_def]
  rw [← split]
  simp [World.doings, System.record]

theorem record_announced : (System.record world me items).announced = world.announced ++ items.filterMap Item.announced? := by
  simp [World.announced]

theorem apply_announced : (effect.apply me world).announced = world.announced := by simp [World.announced]

theorem apply_doings : (effect.apply other world).doings division me = world.doings division me := by simp [World.doings]

theorem concerning_append {registry : RegistryRef} {id : ScopeId} (some more : List (RegistryRef × Event)) :
    concerning registry id (some ++ more) = concerning registry id some ++ concerning registry id more :=
  List.filterMap_append

-- Two worlds that look the same to a task, and in which the same has happened to it.
structure Seems (division : Division C) (me : ThreadId) (one two : World C) : Prop where
  agrees : Agrees division me one two
  doings : two.doings division me = one.doings division me
  told : ∀ id, division.owner id = me →
    concerning division.registry id two.announced = concerning division.registry id one.announced

theorem Seems.refl (world : World C) : Seems division me world world := ⟨.refl world, rfl, fun _ _ => rfl⟩

theorem Seems.trans (first : Seems division me one two) (second : Seems division me two three) : Seems division me one three where
  agrees := first.agrees.trans second.agrees
  doings := second.doings.trans first.doings
  told id mine := (second.told id mine).trans (first.told id mine)

theorem Seems.symm (seems : Seems division me one two) : Seems division me two one where
  agrees := seems.agrees.symm
  doings := seems.doings.symm
  told id mine := (seems.told id mine).symm

theorem record_agrees : Agrees division me world (System.record world other items) :=
  ⟨rfl, rfl, fun _ _ => rfl, fun _ _ => rfl, fun _ _ => rfl, rfl, rfl⟩

theorem record_divided (divided : Divided division world) : Divided division (System.record world me items) :=
  ⟨divided.scopes, divided.occupant, divided.program, divided.registry⟩

theorem seems_apart (divided : Divided division world) (within : move.Within division other world.program) (apart : other ≠ me) :
    Seems division me world (System.record (move.effect.apply other world) other move.items) where
  agrees := (apply_apart divided within.effect apart).trans record_agrees
  doings := by rw [record_doings, if_neg apart, List.append_nil, apply_doings]
  told id mine := by
    rw [record_announced, concerning_append, apply_announced]
    refine List.append_right_eq_self.mpr (List.filterMap_eq_nil_iff.mpr fun told member => ?_)
    obtain ⟨item, there, same⟩ := List.mem_filterMap.mp member
    cases item <;> cases same
    obtain ⟨_, about, known, his⟩ := within.items _ there
    refine if_neg fun both => apart ?_
    cases known.symm.trans both.2
    exact his.symm.trans mine

theorem seems_own (divided : Divided division one) (too : Divided division two) (seems : Seems division me one two)
    (within : move.Within division me one.program) : Seems division me (System.record (move.effect.apply me one) me move.items)
      (System.record (move.effect.apply me two) me move.items) where
  agrees := record_agrees.symm.trans ((apply_agrees divided too seems.agrees within.effect).trans record_agrees)
  doings := by rw [record_doings, record_doings, apply_doings, apply_doings, seems.doings]
  told id mine := by
    rw [record_announced, record_announced, concerning_append, concerning_append, apply_announced, apply_announced, seems.told id mine]

-- A step of the listener: it may write down what it hears.
structure Move.Aside (division : Division C) (move : Move C) : Prop where
  effect : move.effect = .still ∨
    ∃ update, move.effect = .remember update ∧ ∀ task memory, division.part task (update memory) = division.part task memory
  items : ∀ item ∈ move.items, item.isAside division = true

theorem aside_agrees (aside : move.Aside division) : Agrees division me world (move.effect.apply other world) := by
  rcases aside.effect with same | ⟨update, same, apart⟩
  · rw [same]
    exact .refl world
  · rw [same]
    exact { Agrees.refl world with part := apart me _ }

theorem aside_divided (divided : Divided division world) (aside : move.Aside division) :
    Divided division (System.record (move.effect.apply me world) me move.items) := by
  rcases aside.effect with same | ⟨update, same, _⟩
  · rw [same]
    exact record_divided divided
  · rw [same]
    exact ⟨divided.scopes, divided.occupant, divided.program, divided.registry⟩

theorem seems_aside (aside : move.Aside division) :
    Seems division me world (System.record (move.effect.apply other world) other move.items) where
  agrees := (aside_agrees aside).trans record_agrees
  doings := by
    rw [record_doings, apply_doings]
    split
    · exact List.append_right_eq_self.mpr (List.filter_eq_nil_iff.mpr fun item member => by simp [aside.items item member])
    · exact List.append_nil _
  told id mine := by
    rw [record_announced, concerning_append, apply_announced]
    refine List.append_right_eq_self.mpr (List.filterMap_eq_nil_iff.mpr fun told member => ?_)
    obtain ⟨item, there, same⟩ := List.mem_filterMap.mp member
    cases item <;> cases same
    cases aside.items _ there

theorem silent_aside {focus : Focus C} : (Move.silent focus frames).Aside division := ⟨.inl rfl, fun _ none => by cases none⟩

theorem listens_moves (listens : thread.Listens division world.program event frames) (moved : thread.next world me = some move) :
    move.Aside division ∧ (Thread.Listens division world.program event frames ⟨move.focus, move.frames⟩ ∨
      ⟨move.focus, move.frames⟩ = (⟨.back .done, frames⟩ : Thread C)) := by
  cases listens with
  | heard =>
    cases moved
    exact ⟨silent_aside, .inr rfl⟩
  | hears quiet =>
    cases quiet with
    | done | fail => cases moved; exact ⟨silent_aside, .inl .heard⟩
    | jump onward => cases moved; exact ⟨silent_aside, .inl (.hears onward)⟩
    | note aside onward =>
      cases moved
      exact ⟨⟨.inl rfl, fun item member => by cases List.mem_singleton.mp member; exact aside⟩, .inl (.hears onward)⟩
    | access apart onward => cases moved; exact ⟨⟨.inr ⟨_, rfl, apart⟩, fun _ none => by cases none⟩, .inl (.hears (onward _))⟩
    | pause onward =>
      simp only [Thread.next, Move.run] at moved
      split at moved <;> cases moved
      exact ⟨silent_aside, .inl (.hears onward)⟩

theorem listens_waited (passed : Nat) (listens : thread.Listens division program event frames) :
    (System.waited passed thread).Listens division program event frames := by
  rcases System.waited_cases passed thread with same | ⟨left, next, frames, rfl, same⟩
  · rwa [same]
  · rw [same]
    cases listens with
    | hears quiet =>
      cases quiet with
      | pause onward => exact .hears (.pause onward)

theorem within_waited (passed : Nat) (within : thread.Within division me) : (System.waited passed thread).Within division me := by
  rcases System.waited_cases passed thread with same | ⟨left, next, frames, rfl, same⟩
  · rwa [same]
  · rw [same]
    obtain ⟨acts, waits⟩ := within
    cases acts with
    | pause onward => exact ⟨.pause onward, waits⟩

theorem placed_waited (passed : Nat) (placed : thread.Placed division me program) : (System.waited passed thread).Placed division me program := by
  cases placed with
  | own within => exact .own (within_waited passed within)
  | listening hears waits => exact .listening (listens_waited passed hears) waits

namespace System
variable {before after system alone : System C} {count : Nat}

structure Parted (division : Division C) (system : System C) : Prop where
  world : Divided division system.world
  threads : ∀ (me : ThreadId) (thread : Thread C), system.threads[me]? = some thread → thread.Placed division me system.world.program

theorem placed_single (placed : thread.Placed division me program) :
    (∀ count body next, thread.focus ≠ .run (.fork count body next)) ∧ ∀ names next, thread.focus ≠ .join names next := by
  constructor
  · intro count body next same
    cases placed with
    | own within =>
      have acts := within.acts
      rw [same] at acts
      cases acts
    | listening hears => cases hears with
      | hears quiet => cases same; cases quiet
      | heard => cases same
  · intro names next same
    cases placed with
    | own within =>
      have acts := within.acts
      rw [same] at acts
      exact acts
    | listening hears => cases hears <;> cases same

theorem placed_advance (running : system.threads[me]? = some thread) (placed : thread.Placed division me program) :
    system.advance me = (thread.next system.world me).map (system.perform me) :=
  advance_moves running (placed_single placed).1 (placed_single placed).2

theorem placed_moves (divided : Divided division world) (placed : thread.Placed division me world.program)
    (moved : thread.next world me = some move) : (thread.Within division me ∧ move.Within division me world.program) ∨
      ∃ event frames, thread.Listens division world.program event frames ∧ (∀ frame ∈ frames, frame.Within division me) ∧
        move.Aside division ∧ (Thread.Listens division world.program event frames ⟨move.focus, move.frames⟩ ∨
          ⟨move.focus, move.frames⟩ = (⟨.back .done, frames⟩ : Thread C)) := by
  cases placed with
  | own within => exact .inl ⟨within, move_within divided within.acts within.waits moved⟩
  | listening hears waits =>
    obtain ⟨aside, onward⟩ := listens_moves hears moved
    exact .inr ⟨_, _, hears, waits, aside, onward⟩

theorem parted_step (parted : Parted division before) (next : Step before after) : Parted division after := by
  cases next with
  | time passed =>
    refine ⟨parted.world, fun me thread running => ?_⟩
    simp only [elapse, List.getElem?_map, Option.map_eq_some_iff] at running
    obtain ⟨thread, running, rfl⟩ := running
    exact placed_waited passed (parted.threads me thread running)
  | thread me moved =>
    obtain ⟨thread, running, _⟩ := advance_cases moved
    have placed := parted.threads me thread running
    rw [placed_advance running placed] at moved
    obtain ⟨move, goes, rfl⟩ := Option.map_eq_some_iff.mp moved
    have program : (before.perform me move).world.program = before.world.program := apply_program
    have now : Divided division (before.perform me move).world ∧ Thread.Placed division me before.world.program ⟨move.focus, move.frames⟩ := by
      rcases placed_moves parted.world placed goes with ⟨_, within⟩ | ⟨event, frames, _, waits, aside, onward⟩
      · exact ⟨record_divided (apply_divided parted.world within.effect), within.thread⟩
      · refine ⟨aside_divided parted.world aside, ?_⟩
        rcases onward with hears | same
        · exact .listening hears waits
        · rw [same]
          exact .own ⟨trivial, waits⟩
    refine ⟨now.1, fun he other runs => ?_⟩
    rw [program]
    by_cases mine : me = he
    · subst mine
      cases ((List.getElem?_set_self (List.getElem?_eq_some_iff.mp running).1).symm.trans runs)
      exact now.2
    · exact parted.threads he other ((List.getElem?_set_ne mine).symm.trans runs)

theorem parted_runs (parted : Parted division before) (path : Runs before after) : Parted division after := by
  induction path with
  | refl => exact parted
  | step _ next ih => exact parted_step ih next

end System
end Lifespan
