import Mathlib.Data.String.Basic
import Lifespan.Proofs.Registered

-- Who is left in a registry. A shutdown goes through all scopes that are alive, innermost kind first and
-- the ids of one kind in ascending order.
namespace Lifespan

def ScopeId.Before (one two : ScopeId) : Prop :=
  two.kind.position < one.kind.position ∨ one.kind = two.kind ∧ one.id < two.id

theorem ScopeId.before_irrefl (id : ScopeId) : ¬id.Before id := by
  rintro (less | ⟨_, less⟩)
  · exact Nat.lt_irrefl _ less
  · exact lt_irrefl _ less

theorem Text.mem_sorted {names : List String} {name : String} : name ∈ Text.sorted names ↔ name ∈ names :=
  List.mem_mergeSort

theorem Text.sorted_ascends {names : List String} (distinct : names.Nodup) : (Text.sorted names).Pairwise (· < ·) := by
  have ordered : (Text.sorted names).Pairwise fun one two => decide (one ≤ two) = true := by
    refine List.pairwise_mergeSort ?_ ?_ names
    · intro one two three first second
      exact decide_eq_true (le_trans (of_decide_eq_true first) (of_decide_eq_true second))
    · intro one two
      simpa using le_total one two
  have apart : (Text.sorted names).Nodup := (List.mergeSort_perm names _).nodup_iff.mpr distinct
  exact (ordered.and apart).imp fun both => lt_of_le_of_ne (of_decide_eq_true both.1) both.2

namespace Table
variable {κ α : Type} [DecidableEq κ]

theorem mem_found {entries : List (κ × α)} {key : κ} {value : α} (distinct : (entries.map Prod.fst).Nodup) :
    (key, value) ∈ entries ↔ found key entries = some value := by
  induction entries with
  | nil => simp [found]
  | cons entry rest ih =>
    obtain ⟨known, old⟩ := entry
    rw [List.map_cons, List.nodup_cons] at distinct
    simp only [List.mem_cons, Prod.mk.injEq, found]
    split
    · rename_i same
      subst same
      have absent : (known, value) ∉ rest := fun there => distinct.1 (List.mem_map.mpr ⟨_, there, rfl⟩)
      simp [absent, eq_comm]
    · rename_i other
      simp [ih distinct.2, Ne.symm other]

theorem mem_entries {table : Table κ α} {key : κ} {value : α} : (key, value) ∈ table.entries ↔ table.get? key = some value :=
  mem_found table.distinct

end Table

namespace Directory
variable {directory : Directory} {scope : ScopeRef} {kind : Kind}

theorem mem_residents : scope ∈ directory.residents kind ↔ ∃ name, directory.occupant ⟨kind, name⟩ = some scope := by
  cases kind with
  | global | application => simp [residents, occupant]
  | session | request => simp [residents, occupant, ← Table.mem_entries]

theorem table_ids {places : Table String ScopeRef} (own : ∀ name scope, places.get? name = some scope → scope.id.id = name) :
    (places.entries.map fun entry => entry.2.id.id).Nodup := by
  have same : (places.entries.map fun entry => entry.2.id.id) = places.entries.map Prod.fst :=
    List.map_congr_left fun entry member => own _ _ (Table.mem_entries.mp member)
  rw [same]
  exact places.distinct

theorem residents_ids (own : ∀ id scope, directory.occupant id = some scope → scope.id.SharesPlace id) :
    ((directory.residents kind).map (·.id.id)).Nodup := by
  have named (kind : Kind) (many : kind.isSingleSlot = false) (name : String) (scope : ScopeRef)
      (holds : directory.occupant ⟨kind, name⟩ = some scope) : scope.id.id = name := by
    obtain ⟨same, single | named⟩ := own _ _ holds
    · cases many.symm.trans (same ▸ single)
    · exact named
  cases kind with
  | global => cases held : directory.global <;> simp [residents, held]
  | application => cases held : directory.application <;> simp [residents, held]
  | session =>
    simp only [residents, List.map_map]
    exact table_ids (named .session rfl)
  | request =>
    simp only [residents, List.map_map]
    exact table_ids (named .request rfl)

end Directory

variable {C : Client} {world : World C} {registry : RegistryRef} {scope : ScopeRef} {kind : Kind} {id : ScopeId}

-- The scopes that a shutdown ends if nobody else does, in its order.
def World.remaining (world : World C) (registry : RegistryRef) : List ScopeRef :=
  (world.leftovers registry).filterMap (world.registered registry)

theorem world_residents : scope ∈ ((world.registries[registry]?).elim [] fun cell => cell.directory.residents kind) ↔
    ∃ name, world.occupant registry ⟨kind, name⟩ = some scope := by
  unfold World.occupant
  cases world.registries[registry]? with
  | none => simp
  | some cell => simp [Directory.mem_residents]

namespace System

theorem Filed.mem_living (filed : Filed world) : scope ∈ world.living registry kind ↔
    world.isAlive scope = true ∧ scope.registry = registry ∧ scope.id.kind = kind := by
  rw [World.living, List.mem_filter, world_residents]
  constructor
  · rintro ⟨⟨name, holds⟩, alive⟩
    obtain ⟨mine, shares, _⟩ := filed.own _ _ _ holds
    exact ⟨alive, mine, shares.1⟩
  · rintro ⟨alive, rfl, rfl⟩
    exact ⟨⟨scope.id.id, filed.present scope alive⟩, alive⟩

theorem Filed.living_ids (filed : Filed world) : ((world.living registry kind).map (·.id.id)).Nodup := by
  refine List.Nodup.sublist (List.Sublist.map _ List.filter_sublist) ?_
  cases found : world.registries[registry]? with
  | none => exact .nil
  | some cell =>
    refine Directory.residents_ids fun id scope holds => ?_
    have stands : world.occupant registry id = some scope := by simp [World.occupant, found, holds]
    exact (filed.own registry id scope stands).2.1

theorem Filed.mem_ids {name : String} (filed : Filed world) : name ∈ world.ids registry kind ↔
    ∃ scope, world.isAlive scope = true ∧ scope.registry = registry ∧ scope.id = ⟨kind, name⟩ := by
  simp only [World.ids, Text.mem_sorted, List.mem_map, filed.mem_living]
  constructor
  · rintro ⟨scope, ⟨alive, mine, rfl⟩, rfl⟩
    exact ⟨scope, alive, mine, rfl⟩
  · rintro ⟨scope, alive, mine, same⟩
    exact ⟨scope, ⟨alive, mine, by rw [same]⟩, by rw [same]⟩

theorem Filed.mem_leftovers (filed : Filed world) : id ∈ world.leftovers registry ↔
    ∃ scope, world.isAlive scope = true ∧ scope.registry = registry ∧ scope.id = id := by
  simp only [World.leftovers, List.mem_flatMap, List.mem_reverse, List.mem_map, filed.mem_ids]
  constructor
  · rintro ⟨kind, _, name, ⟨scope, alive, mine, same⟩, rfl⟩
    exact ⟨scope, alive, mine, same⟩
  · rintro ⟨scope, alive, mine, rfl⟩
    exact ⟨scope.id.kind, Kind.mem_all _, scope.id.id, ⟨scope, alive, mine, rfl⟩, rfl⟩

theorem Filed.leftovers_ordered (filed : Filed world) : (world.leftovers registry).Pairwise ScopeId.Before := by
  refine List.pairwise_flatMap.mpr ⟨fun kind _ => ?_, ?_⟩
  · exact List.pairwise_map.mpr ((Text.sorted_ascends filed.living_ids).imp fun less => .inr ⟨rfl, less⟩)
  · have inward : Kind.all.reverse.Pairwise fun one two => two.position < one.position := by decide
    refine inward.imp fun {one two} further first there second behind => ?_
    obtain ⟨_, _, rfl⟩ := List.mem_map.mp there
    obtain ⟨_, _, rfl⟩ := List.mem_map.mp behind
    exact .inl further

theorem Filed.registered (filed : Filed world) (alive : world.isAlive scope = true) :
    world.registered scope.registry scope.id = some scope := by
  rw [World.registered, filed.present scope alive]
  simp

theorem Filed.left (filed : Filed world) (left : id ∈ world.leftovers registry) :
    ∃ scope, world.registered registry id = some scope ∧ world.isAlive scope = true ∧ scope.registry = registry ∧ scope.id = id := by
  obtain ⟨scope, alive, rfl, rfl⟩ := filed.mem_leftovers.mp left
  exact ⟨scope, filed.registered alive, alive, rfl, rfl⟩

theorem Filed.remaining_ids (filed : Filed world) : (world.remaining registry).map ScopeRef.id = world.leftovers registry := by
  unfold World.remaining
  suffices all : ∀ ids : List ScopeId, (∀ id ∈ ids, id ∈ world.leftovers registry) →
      (ids.filterMap (world.registered registry)).map ScopeRef.id = ids from all _ fun _ left => left
  intro ids left
  induction ids with
  | nil => rfl
  | cons id rest ih =>
    obtain ⟨first, others⟩ := List.forall_mem_cons.mp left
    obtain ⟨scope, stands, _, _, same⟩ := filed.left first
    rw [List.filterMap_cons_some stands, List.map_cons, same, ih others]

theorem Filed.mem_remaining (filed : Filed world) :
    scope ∈ world.remaining registry ↔ scope.registry = registry ∧ world.isAlive scope = true := by
  rw [World.remaining, List.mem_filterMap]
  constructor
  · rintro ⟨id, left, stands⟩
    obtain ⟨other, same, alive, mine, _⟩ := filed.left left
    cases stands.symm.trans same
    exact ⟨mine, alive⟩
  · rintro ⟨rfl, alive⟩
    exact ⟨scope.id, filed.mem_leftovers.mpr ⟨scope, alive, rfl, rfl⟩, filed.registered alive⟩

theorem Filed.remaining_ordered (filed : Filed world) :
    (world.remaining registry).Pairwise fun one two => one.id.Before two.id := by
  have ordered : (world.leftovers registry).Pairwise ScopeId.Before := filed.leftovers_ordered
  rw [← filed.remaining_ids] at ordered
  exact List.pairwise_map.mp ordered

theorem Filed.remaining_nodup (filed : Filed world) : (world.remaining registry).Nodup := by
  refine filed.remaining_ordered.imp ?_
  rintro one _ less rfl
  exact ScopeId.before_irrefl _ less

theorem Filed.hasLiving_iff (filed : Filed world) :
    world.hasLiving registry = true ↔ ∃ scope, scope.registry = registry ∧ world.isAlive scope = true := by
  have counts (kind : Kind) : decide (world.activeCount registry kind ≠ 0) = true ↔ ∃ scope, scope ∈ world.living registry kind := by
    rw [decide_eq_true_iff, World.activeCount, Ne, List.length_eq_zero_iff]
    exact ⟨List.exists_mem_of_ne_nil _, fun ⟨_, there⟩ => List.ne_nil_of_mem there⟩
  simp only [World.hasLiving, List.any_eq_true, counts, filed.mem_living]
  constructor
  · rintro ⟨_, _, scope, alive, mine, _⟩
    exact ⟨scope, mine, alive⟩
  · rintro ⟨scope, mine, alive⟩
    exact ⟨scope.id.kind, Kind.mem_all _, scope, alive, mine, rfl⟩

end System
end Lifespan
