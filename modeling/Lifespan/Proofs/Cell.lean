import Lifespan.Proofs.History
import Lifespan.Proofs.Stock

-- How a single change of what is shared looks from one scope. A scope that was never begun
-- counts as a fresh one, so that beginning it changes nothing.
namespace Lifespan
variable {C : Client}

def World.cell (world : World C) (scope : ScopeRef) : Scope C := (world.scope? scope).getD .fresh

namespace Effect

def target? : Effect C → Option ScopeRef
  | retire scope | mark scope | share scope | unshare scope | exclude scope | reopen scope | empty scope |
    clearGates scope | queue scope _ | seize scope _ | yield scope _ | start scope _ | finish scope _ | keep scope _ _ |
    setAttribute scope _ _ | removeAttribute scope _ | clearAttributes scope => some scope
  | _ => none

def change (me : ThreadId) (effect : Effect C) (cell : Scope C) : Scope C :=
  match effect with
  | retire _ => { cell with state := .destructionPending }
  | mark _ => { cell with state := .destroyed }
  | share _ => { cell with sharing := me :: cell.sharing }
  | unshare _ => { cell with sharing := cell.sharing.erase me }
  | exclude _ => { cell with exclusive := some me }
  | reopen _ => { cell with exclusive := none }
  | empty _ => { cell with store := .empty }
  | clearGates _ => { cell with gates := .empty }
  | queue _ key => cell.queued key me
  | seize _ gate => { cell with turns := cell.turns.set gate (some me) }
  | yield _ gate => { cell with turns := cell.turns.set gate none }
  | start _ key => { cell with gates := cell.gates.start key me }
  | finish _ key => { cell with gates := cell.gates.finish key me }
  | keep scope key made => cell.kept scope key made
  | setAttribute _ name value => { cell with attributes := cell.attributes.put name value }
  | removeAttribute _ name => { cell with attributes := cell.attributes.erase name }
  | clearAttributes _ => { cell with attributes := .empty }
  | _ => cell

-- A change that no construction and no ending takes notice of.
def isPlain : Effect C → Bool
  | still | remember _ | establish _ | listen _ _ | make _ | setAttribute _ _ _ | removeAttribute _ _ => true
  | _ => false

def registered? : Effect C → Option (RegistryRef × ScopeId)
  | register registry id => some (registry, id)
  | _ => none

end Effect

variable {world : World C} {me : ThreadId} {items : List (Item C)} {effect : Effect C} {scope other : ScopeRef}
  {change : Scope C → Scope C} {cell : Scope C}

theorem cell_found (found : world.scope? scope = some cell) : world.cell scope = cell := by simp [World.cell, found]

theorem inactive_known (inactive : (world.cell scope).state ≠ .active) : (world.scope? scope).isSome := by
  cases found : world.scope? scope with
  | some cell => rfl
  | none => exact absurd (by simp [World.cell, found, Scope.fresh_eq]) inactive

theorem kept_get? (cell : Scope C) (scope : ScopeRef) (key : String) (made : Instance C) (name : String) :
    (cell.kept scope key made).store.get? name =
      (cell.store.get? name).or (if name = key then some ⟨.kept scope cell.instances.length, made.type⟩ else none) :=
  Store.insert_get? cell.store key ⟨.kept scope cell.instances.length, made.type⟩ name

@[simp] theorem record_scope? : (System.record world me items).scope? scope = world.scope? scope := rfl

@[simp] theorem record_cell : (System.record world me items).cell scope = world.cell scope := rfl

theorem onScope_scope? : (world.onScope scope change).scope? other =
    if other = scope then (world.scope? scope).map change else world.scope? other :=
  Table.get?_modify _ _ _ _

theorem onScope_isSome : ((world.onScope scope change).scope? other).isSome = (world.scope? other).isSome := by
  rw [onScope_scope?]
  split
  · rename_i same; simp [same]
  · rfl

theorem onScope_cell (known : (world.scope? scope).isSome) :
    (world.onScope scope change).cell other = if other = scope then change (world.cell other) else world.cell other := by
  obtain ⟨cell, found⟩ := Option.isSome_iff_exists.mp known
  unfold World.cell
  rw [onScope_scope?]
  split
  · rename_i same; simp [same, found]
  · rfl

theorem register_scope? {id : ScopeId} : ((Effect.register registry id).apply me world).scope? other =
    if other = world.nextScope registry id then some .fresh else world.scope? other :=
  Table.get?_put _ _ _ _

theorem register_cell {id : ScopeId} (fresh : world.scope? (world.nextScope registry id) = none) :
    ((Effect.register registry id).apply me world).cell other = world.cell other := by
  unfold World.cell
  rw [register_scope?]
  split
  · rename_i same; simp [same, fresh]
  · rfl

theorem target_cell (target : effect.target? = some scope) (known : (world.scope? scope).isSome) :
    (effect.apply me world).cell other = if other = scope then effect.change me (world.cell other) else world.cell other := by
  cases effect <;> cases target <;> exact onScope_cell known

theorem mark_cell (known : (world.scope? scope).isSome) :
    (((Effect.mark scope).apply me world).cell scope).state = .destroyed := by
  rw [target_cell rfl known, if_pos rfl]
  rfl

theorem untargeted_scope? (target : effect.target? = none) (ordinary : effect.registered? = none) :
    (effect.apply me world).scope? other = world.scope? other := by
  cases effect <;> cases target <;> cases ordinary <;> rfl

theorem untargeted_cell (target : effect.target? = none) (ordinary : effect.registered? = none) :
    (effect.apply me world).cell other = world.cell other := by
  unfold World.cell
  rw [untargeted_scope? target ordinary]

theorem untargeted_change (target : effect.target? = none) : effect.change me cell = cell := by
  cases effect <;> cases target <;> rfl

theorem plain_registered (plain : effect.isPlain = true) : effect.registered? = none := by
  cases effect <;> cases plain <;> rfl

theorem plain_change (plain : effect.isPlain = true) :
    ∃ attributes, effect.change me cell = { cell with attributes := attributes } := by
  cases effect <;> cases plain <;> exact ⟨_, rfl⟩

theorem onScope_unknown (unknown : world.scope? scope = none) : world.onScope scope change = world := by
  have absent : world.scopes.get? scope = none := unknown
  simp [World.onScope, Table.modify, absent]

theorem unknown_apply (target : effect.target? = some scope) (unknown : world.scope? scope = none) :
    effect.apply me world = world := by
  cases effect <;> cases target <;> exact onScope_unknown unknown

theorem apply_cell (effect : Effect C) (me : ThreadId) (world : World C) (scope : ScopeRef) :
    (effect.apply me world).cell scope = world.cell scope ∨
    (effect.target? = some scope ∧ (effect.apply me world).cell scope = effect.change me (world.cell scope)) ∨
    ∃ registry id, effect = .register registry id ∧ scope = world.nextScope registry id ∧
      (effect.apply me world).cell scope = .fresh := by
  cases target : effect.target? with
  | none =>
    cases new : effect.registered? with
    | none => exact .inl (untargeted_cell target new)
    | some place =>
      cases effect with
      | register registry id =>
        by_cases same : scope = world.nextScope registry id
        · refine .inr (.inr ⟨registry, id, rfl, same, ?_⟩)
          simp [World.cell, register_scope?, same]
        · refine .inl ?_
          simp [World.cell, register_scope?, same]
      | _ => cases new
  | some touched =>
    cases found : world.scope? touched with
    | none => exact .inl (by rw [unknown_apply target found])
    | some cell =>
      have changed : (effect.apply me world).cell scope = _ := target_cell target (by rw [found]; rfl)
      by_cases same : scope = touched
      · subst same
        exact .inr (.inl ⟨rfl, changed.trans (if_pos rfl)⟩)
      · exact .inl (changed.trans (if_neg same))

theorem plain_cell (plain : effect.isPlain = true) :
    ∃ attributes, (effect.apply me world).cell scope = { world.cell scope with attributes := attributes } := by
  rcases apply_cell effect me world scope with same | ⟨_, changed⟩ | ⟨registry, id, rfl, _⟩
  · exact ⟨_, same⟩
  · rw [changed]
    exact plain_change plain
  · cases plain

theorem apply_isSome (known : (world.scope? scope).isSome) : ((effect.apply me world).scope? scope).isSome := by
  cases effect <;> first
    | exact known
    | exact onScope_isSome.trans known
    | (rw [register_scope?]; split <;> simp [known])

theorem apply_known (known : ((effect.apply me world).scope? scope).isSome) :
    (world.scope? scope).isSome ∨
      ∃ registry id, effect.registered? = some (registry, id) ∧ scope = world.nextScope registry id := by
  cases effect <;> first
    | exact .inl known
    | exact .inl (onScope_isSome.symm.trans known)
    | skip
  rename_i registry id
  rw [register_scope?] at known
  split at known
  · rename_i same; exact .inr ⟨registry, id, rfl, same⟩
  · exact .inl known

end Lifespan
