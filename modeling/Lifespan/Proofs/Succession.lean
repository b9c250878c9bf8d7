import Lifespan.Proofs.Registered

-- How one scope comes after another. A scope leaves its active state where a thread retires it, and of
-- all the scopes that are begun under an identity only the last may be alive.
namespace Lifespan
variable {C : Client}

def Effect.closes? : Effect C → Option ScopeRef
  | retire scope | mark scope => some scope
  | _ => none

-- An activity that is there because somebody has asked for it.
def Activity.isAsked : Activity → Bool
  | finding | sweeping | calling => true
  | _ => false

def World.Newest (world : World C) (scope : ScopeRef) : Prop :=
  (world.nextScope scope.registry scope.id).turn = scope.turn + 1

section
variable {world : World C} {me : ThreadId} {thread : Thread C} {move : Move C} {scope : ScopeRef}

theorem active_iff : world.isActive scope = true ↔ (world.scope? scope).isSome ∧ (world.cell scope).state = .active := by
  unfold World.isActive World.cell Scope.isActive
  cases world.scope? scope <;> simp

theorem lasting_state {cell : Scope C} {effect : Effect C} (lasting : effect.closes? = none) :
    (effect.change me cell).state = cell.state := by
  cases effect <;> first | rfl | cases lasting

theorem closes_target {effect : Effect C} (closes : effect.closes? = some scope) : effect.target? = some scope := by
  cases effect <;> cases closes <;> rfl

theorem spared_state {effect : Effect C} (spares : effect.closes? ≠ some scope) (numbered : world.Numbered) :
    ((effect.apply me world).cell scope).state = (world.cell scope).state := by
  rcases apply_cell effect me world scope with same | ⟨target, changed⟩ | ⟨registry, id, rfl, rfl, fresh⟩
  · rw [same]
  · rw [changed]
    refine lasting_state ?_
    cases closes : effect.closes? with
    | none => rfl
    | some other =>
      cases target.symm.trans (closes_target closes)
      exact absurd closes spares
  · rw [register_cell numbered.fresh]

theorem own_spares {effect : Effect C} (own : effect.isOwn = true) : effect.closes? = none := by
  cases effect <;> first | rfl | cases own

theorem Turn.closes (turn : Turn world me thread move) (closes : move.effect.closes? = some scope) :
    thread.focus = .retire scope ∨ ∃ failures, thread.focus = .mark scope failures := by
  cases turn with
  | retires => cases closes; exact .inl rfl
  | marks => cases closes; exact .inr ⟨_, rfl⟩
  | goOn _ own | answers own => cases (own_spares own).symm.trans closes
  | backHooked | unwindHooked => rw [hooked_effect] at closes; cases closes
  | backDropped => rw [dropped_effect] at closes; cases closes
  | backReleased => rw [released_effect] at closes; cases closes
  | _ => cases closes

-- From one end to another one below it, it is user code that has asked.
theorem Stacked.between {aided : Prop} {registry : RegistryRef} {frame : Frame C} {upper base : List (Frame C)}
    (stacked : Stacked aided (frame :: (upper ++ .ended registry scope :: base))) (asked : frame.activity.isAsked = true) :
    ∃ next, .user next ∈ upper := by
  induction upper generalizing frame with
  | nil =>
    have borne := stacked.1
    cases frame <;> first | cases asked; done | cases borne
  | cons first rest ih =>
    cases first with
    | user next => exact ⟨next, List.mem_cons_self ..⟩
    | sweeping | released | dropped =>
      obtain ⟨next, member⟩ := ih stacked.2 rfl
      exact ⟨next, List.mem_cons_of_mem _ member⟩
    | _ =>
      have borne := stacked.1
      cases frame <;> first | cases asked; done | cases borne

end

namespace System
variable {system start before after : System C} {program : C.Label → Code C} {memory : C.Memory} {code : Code C}
  {thread : Thread C} {me : ThreadId} {scope other : ScopeRef} {registry : RegistryRef} {id : ScopeId}

theorem known_stays (change : Change before after) (known : (before.world.scope? scope).isSome) :
    (after.world.scope? scope).isSome := by
  cases change with
  | turn => exact apply_isSome known
  | _ => exact known

theorem runs_known (onward : Runs start system) (known : (start.world.scope? scope).isSome) :
    (system.world.scope? scope).isSome := by
  induction onward with
  | refl => exact known
  | step _ next ih => exact known_stays (step_change next) ih

theorem registered_own (path : Runs (initial program memory code) system)
    (registered : system.world.registered registry id = some scope) :
    scope.registry = registry ∧ scope.id = id ∧ (system.world.scope? scope).isSome := by
  obtain ⟨holds, exact_⟩ := Option.filter_eq_some_iff.mp registered
  obtain ⟨here, shares, known⟩ := (runs_filed path).own registry id scope holds
  refine ⟨here, ?_, known⟩
  have named : scope.id.id = id.id := by
    rcases shares.2 with single | same
    · rw [shares.1] at single
      simpa [single] using exact_
    · exact same
  obtain ⟨place, own, turn⟩ := scope
  obtain ⟨kind, name⟩ := own
  obtain ⟨other, wanted⟩ := id
  cases shares.1
  cases named
  rfl

theorem turn_grows (deeds : Deeds before after me effect items) (registry : RegistryRef) (id : ScopeId) :
    (before.world.nextScope registry id).turn ≤ (after.world.nextScope registry id).turn := by
  rw [deeds.world]
  show _ ≤ ((effect.apply me before.world).nextScope registry id).turn
  cases new : effect.registered? with
  | none => exact Nat.le_of_eq (by rw [ordinary_next new])
  | some place =>
    have known := deeds.deed.registers new
    cases effect <;> cases new
    rw [register_next known]
    split
    · rename_i same
      obtain ⟨rfl, rfl⟩ := same
      exact Nat.le_succ _
    · exact Nat.le_refl _

theorem runs_newest (path : Runs (initial program memory code) system) :
    ∀ scope, system.world.isAlive scope = true → system.world.Newest scope := by
  induction path with
  | refl => exact fun scope alive => nomatch alive
  | @step before after path step ih =>
    obtain ⟨me, effect, items, deeds⟩ := change_deeds (step_change step) (runs_sound path)
    intro scope alive
    have present : ((effect.apply me before.world).scope? scope).isSome := by
      have known := (alive_iff.mp alive).1
      rw [deeds.world] at known
      exact known
    unfold World.Newest
    rw [deeds.world]
    show ((effect.apply me before.world).nextScope scope.registry scope.id).turn = _
    cases new : effect.registered? with
    | none =>
      rw [ordinary_next new]
      rcases apply_known present with known | ⟨registry, id, same, _⟩
      · exact ih scope (deeds_alive path deeds known alive)
      · cases new.symm.trans same
    | some place =>
      obtain ⟨registry, id⟩ := place
      cases effect <;> cases new
      obtain ⟨vacant, known⟩ := deeds_registers deeds
      rw [register_next known]
      rcases apply_known present with old | ⟨_, _, same, rfl⟩
      · have was := deeds_alive path deeds old alive
        have apart : ¬(scope.registry = registry ∧ scope.id = id) := by
          rintro ⟨rfl, rfl⟩
          have taken := (runs_filed path).present scope was
          rw [taken] at vacant
          simp [was] at vacant
        rw [if_neg apart]
        exact ih scope was
      · cases same
        exact congrArg ScopeRef.turn (if_pos ⟨rfl, rfl⟩)

theorem newest_before (onward : Runs start system) (reached : Runs (initial program memory code) start)
    (known : (start.world.scope? scope).isSome) (newest : system.world.Newest scope) : start.world.Newest scope := by
  have grows : (start.world.nextScope scope.registry scope.id).turn ≤ (system.world.nextScope scope.registry scope.id).turn := by
    clear newest
    induction onward with
    | refl => exact Nat.le_refl _
    | step onward next ih =>
      obtain ⟨me, effect, items, deeds⟩ := change_deeds (step_change next) (runs_sound (reached.trans onward))
      exact Nat.le_trans ih (turn_grows deeds _ _)
  have passed : scope.turn < (start.world.nextScope scope.registry scope.id).turn := (runs_grounded reached).numbered scope known
  have last : (system.world.nextScope scope.registry scope.id).turn = scope.turn + 1 := newest
  show _ = _
  omega

-- A scope leaves its active state where a thread retires it, and nowhere else.
theorem state_retires (path : Runs (initial program memory code) before) (running : before.threads[me]? = some thread)
    (moved : before.advance me = some after) (state : (before.world.cell scope).state = .active)
    (inactive : (after.world.cell scope).state ≠ .active) : thread.focus = .retire scope := by
  obtain ⟨acting, here, ⟨move, turn, rfl⟩ | ⟨_, _, _, _, _, _, rfl⟩ | ⟨_, _, _, _, _, rfl⟩⟩ := advance_cases moved
  · cases running.symm.trans here
    have closes : move.effect.closes? = some scope :=
      Decidable.byContradiction fun spares => inactive ((spared_state spares (runs_grounded path).numbered).trans state)
    refine (turn.closes closes).resolve_right ?_
    rintro ⟨failures, marks⟩
    have member : .settled ∈ (before.life scope).ends me := life_stage (focus_stage running (by rw [marks]; rfl))
    have orderly := (runs_lived path scope).orderly
    have pending : (before.world.cell scope).state = .destructionPending :=
      (orderly.owned (orderly.only member)).1.states _ member _ rfl
    cases state.symm.trans pending
  · exact absurd state inactive
  · exact absurd state inactive

theorem advance_retires (path : Runs (initial program memory code) before) (running : before.threads[me]? = some thread)
    (moved : before.advance me = some after) (active : before.world.isActive scope = true)
    (inactive : after.world.isActive scope = false) : thread.focus = .retire scope := by
  obtain ⟨known, state⟩ := active_iff.mp active
  refine state_retires path running moved state fun still => ?_
  have later := active_iff.mpr ⟨runs_known (.step (.refl _) (.thread me moved)) known, still⟩
  rw [later] at inactive
  cases inactive

theorem alive_since (path : Runs (initial program memory code) system) (alive : system.world.isAlive scope = true)
    (here : scope.registry = other.registry) (same : scope.id = other.id) (known : (system.world.scope? other).isSome) :
    scope = other ∨ other.turn < scope.turn ∧ (system.world.cell other).state = .destroyed := by
  have newest : (system.world.nextScope scope.registry scope.id).turn = scope.turn + 1 := runs_newest path scope alive
  have passed : other.turn < (system.world.nextScope other.registry other.id).turn := (runs_grounded path).numbered other known
  rw [← here, ← same, newest] at passed
  by_cases equal : other.turn = scope.turn
  · obtain ⟨place, id, turn⟩ := scope
    obtain ⟨place, id, turn⟩ := other
    cases here
    cases same
    cases equal
    exact .inl rfl
  · refine .inr ⟨by omega, Decidable.byContradiction fun lives => equal ?_⟩
    have both := (runs_filed path).one alive (alive_iff.mpr ⟨known, lives⟩) here (same ▸ scope.id.sharesPlace_refl)
    rw [both]

theorem newest_idle (path : Runs (initial program memory code) system) (newest : system.world.Newest other)
    (inactive : (system.world.cell other).state ≠ .active) (here : scope.registry = other.registry)
    (same : scope.id = other.id) : system.world.isActive scope = false := by
  refine Bool.eq_false_iff.mpr fun active => ?_
  obtain ⟨known, state⟩ := active_iff.mp active
  have alive : system.world.isAlive scope = true := alive_iff.mpr ⟨known, by simp [state]⟩
  rcases alive_since path alive here same (inactive_known inactive) with rfl | ⟨later, _⟩
  · exact inactive state
  · have last : (system.world.nextScope scope.registry scope.id).turn = scope.turn + 1 := runs_newest path scope alive
    have otherLast : (system.world.nextScope other.registry other.id).turn = other.turn + 1 := newest
    rw [here, same, otherLast] at last
    omega

end System
end Lifespan
