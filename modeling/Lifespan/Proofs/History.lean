import Lifespan.Proofs.Turn

-- The history read in the order of its making, and how a step of a system adds to it.
namespace Lifespan
variable {C : Client}

namespace World

def chronicle (world : World C) : List (Item C) := world.history.reverse.map Prod.snd

-- Somebody called a hook or a teardown by hand.
def aided (world : World C) : Prop := ∃ op, .called op ∈ world.chronicle ∧ op.isByHand = true

def handed (world : World C) : Prop := ∃ scope store, .called (.destroyAll scope store) ∈ world.chronicle

-- Some listener panicked.
def shaken (world : World C) : Prop := ∃ registry event, .listenerPanicked registry event ∈ world.chronicle

end World

def Item.isByHand : Item C → Bool
  | called op => op.isByHand
  | _ => false

def Item.isHanded : Item C → Bool
  | called (.destroyAll _ _) => true
  | _ => false

def Item.isAlarm : Item C → Bool
  | listenerPanicked _ _ => true
  | _ => false

variable {world : World C} {me : ThreadId} {items : List (Item C)} {effect : Effect C} {move : Move C}

theorem aided_iff : world.chronicle.any Item.isByHand = true ↔ world.aided := by
  constructor
  · intro some
    obtain ⟨item, member, byHand⟩ := List.any_eq_true.mp some
    cases item with
    | called op => exact ⟨op, member, byHand⟩
    | _ => cases byHand
  · rintro ⟨op, member, byHand⟩
    exact List.any_eq_true.mpr ⟨_, member, byHand⟩

theorem handed_iff : world.chronicle.any Item.isHanded = true ↔ world.handed := by
  constructor
  · intro some
    obtain ⟨item, member, handed⟩ := List.any_eq_true.mp some
    cases item with
    | called op =>
      cases op with
      | destroyAll scope store => exact ⟨scope, store, member⟩
      | _ => cases handed
    | _ => cases handed
  · rintro ⟨scope, store, member⟩
    exact List.any_eq_true.mpr ⟨_, member, rfl⟩

theorem handed_aided (handed : world.handed) : world.aided := by
  obtain ⟨scope, store, called⟩ := handed
  exact ⟨_, called, rfl⟩

theorem shaken_iff : world.chronicle.any Item.isAlarm = true ↔ world.shaken := by
  constructor
  · intro some
    obtain ⟨item, member, alarm⟩ := List.any_eq_true.mp some
    cases item with
    | listenerPanicked registry event => exact ⟨registry, event, member⟩
    | _ => cases alarm
  · rintro ⟨registry, event, member⟩
    exact List.any_eq_true.mpr ⟨_, member, rfl⟩

instance : Decidable world.aided := decidable_of_decidable_of_iff aided_iff

instance : Decidable world.handed := decidable_of_decidable_of_iff handed_iff

instance : Decidable world.shaken := decidable_of_decidable_of_iff shaken_iff

@[simp] theorem apply_history : (effect.apply me world).history = world.history := by cases effect <;> rfl

@[simp] theorem apply_chronicle : (effect.apply me world).chronicle = world.chronicle := by
  simp [World.chronicle]

@[simp] theorem record_chronicle : (System.record world me items).chronicle = world.chronicle ++ items := by
  simp [World.chronicle, System.record, Function.comp_def]

theorem aided_grows (aided : world.aided) : (System.record (effect.apply me world) me items).aided := by
  obtain ⟨op, called, byHand⟩ := aided
  exact ⟨op, by simp [called], byHand⟩

theorem handed_grows (handed : world.handed) : (System.record (effect.apply me world) me items).handed := by
  obtain ⟨scope, store, called⟩ := handed
  exact ⟨scope, store, by simp [called]⟩

theorem shaken_grows (shaken : world.shaken) : (System.record (effect.apply me world) me items).shaken := by
  obtain ⟨registry, event, panicked⟩ := shaken
  exact ⟨registry, event, by simp [panicked]⟩

namespace System
variable {before after system : System C}

theorem waited_cases (passed : Nat) (thread : Thread C) : waited passed thread = thread ∨
    ∃ left next frames, thread = ⟨.run (.pause left next), frames⟩ ∧
      waited passed thread = ⟨.run (.pause (left - passed) next), frames⟩ := by
  obtain ⟨focus, frames⟩ := thread
  unfold waited
  split
  · rename_i left next same
    cases (show focus = _ from same)
    exact .inr ⟨left, next, frames, rfl, rfl⟩
  · exact .inl rfl

theorem change_chronicle (change : Change before after) : ∃ items, after.world.chronicle = before.world.chronicle ++ items := by
  cases change with
  | @turn _ _ move => exact ⟨move.items, by simp [perform]⟩
  | _ => exact ⟨[], (List.append_nil _).symm⟩

theorem runs_chronicle (path : Runs before after) : before.world.chronicle <+: after.world.chronicle := by
  induction path with
  | refl => exact List.prefix_refl _
  | step _ next ih =>
    obtain ⟨items, same⟩ := change_chronicle (step_change next)
    exact ih.trans ⟨items, same.symm⟩

theorem runs_handed (path : Runs before after) (handed : before.world.handed) : after.world.handed := by
  obtain ⟨scope, store, called⟩ := handed
  exact ⟨scope, store, (runs_chronicle path).subset called⟩

theorem change_length (change : Change before after) : before.threads.length ≤ after.threads.length := by
  cases change with
  | turn => simp [perform]
  | fork => simp
  | join => simp
  | time => simp [elapse]

theorem runs_length (path : Runs before after) : before.threads.length ≤ after.threads.length := by
  induction path with
  | refl => exact Nat.le_refl _
  | step _ next ih => exact Nat.le_trans ih (change_length (step_change next))

theorem alone_before {program : C.Label → Code C} {memory : C.Memory} {code : Code C}
    (reached : Runs (initial program memory code) before) (onward : Runs before after) (single : after.threads.length = 1) :
    before.threads.length = 1 := by
  have begun : 1 ≤ before.threads.length := runs_length reached
  have grows := runs_length onward
  omega

-- What each thread keeps by its own steps and by those of the others, all threads keep. What
-- exactly user code is does not matter to it.
theorem Change.carry {P : World C → Thread C → Prop} (change : Change before after)
    (valid : ∀ thread ∈ before.threads, P before.world thread)
    (fresh : ∀ world code, P world (.ofCode code))
    (codes : ∀ world code other frames, P world ⟨.run code, frames⟩ → P world ⟨.run other, frames⟩)
    (joins : ∀ world code names next frames, P world ⟨.run code, frames⟩ ↔ P world ⟨.join names next, frames⟩)
    (turns : ∀ me thread move, Turn before.world me thread move → P before.world thread →
      P (record (move.effect.apply me before.world) me move.items) ⟨move.focus, move.frames⟩)
    (others : ∀ me thread move other, Turn before.world me thread move → P before.world other →
      P (record (move.effect.apply me before.world) me move.items) other) :
    ∀ thread ∈ after.threads, P after.world thread := by
  intro thread member
  cases change with
  | turn running turn =>
    have was := valid _ (List.mem_of_getElem? running)
    rcases List.mem_or_eq_of_mem_set member with old | rfl
    · exact others _ _ _ _ turn (valid thread old)
    · exact turns _ _ _ turn was
  | fork running =>
    have was := valid _ (List.mem_of_getElem? running)
    rcases List.mem_append.mp member with old | new
    · rcases List.mem_or_eq_of_mem_set old with old | rfl
      · exact valid thread old
      · exact (joins _ _ _ _ _).mp was
    · obtain ⟨index, _, rfl⟩ := List.mem_map.mp new
      exact fresh _ _
  | join running =>
    have was := valid _ (List.mem_of_getElem? running)
    rcases List.mem_or_eq_of_mem_set member with old | rfl
    · exact valid thread old
    · exact codes _ .done _ _ ((joins _ _ _ _ _).mpr was)
  | @time passed =>
    obtain ⟨thread, old, rfl⟩ := List.mem_map.mp member
    have was := valid _ old
    rcases waited_cases passed thread with same | ⟨left, next, frames, rfl, same⟩
    · rw [same]
      exact was
    · rw [same]
      exact codes _ _ _ _ was

end System
end Lifespan
