-- A finite table: no key has two values. The proof that the keys are distinct
-- travels with the entries, so a table's size is the number of its keys.
namespace Lifespan

structure Table (κ α : Type) where
  entries : List (κ × α)
  distinct : (entries.map Prod.fst).Nodup

namespace Table
variable {κ α : Type} [DecidableEq κ]

def found (key : κ) : List (κ × α) → Option α
  | [] => none
  | (known, value) :: rest => if known = key then some value else found key rest

-- The entry of a key that is present keeps its place; a new key goes last.
def placed (key : κ) (value : α) : List (κ × α) → List (κ × α)
  | [] => [(key, value)]
  | (known, old) :: rest => if known = key then (key, value) :: rest else (known, old) :: placed key value rest

def without (key : κ) : List (κ × α) → List (κ × α)
  | [] => []
  | (known, value) :: rest => if known = key then without key rest else (known, value) :: without key rest

theorem mem_placed {key other : κ} {value : α} {entries : List (κ × α)} :
    other ∈ (placed key value entries).map Prod.fst ↔ other = key ∨ other ∈ entries.map Prod.fst := by
  fun_induction placed key value entries <;> grind

theorem mem_without {key other : κ} {entries : List (κ × α)} :
    other ∈ (without key entries).map Prod.fst ↔ other ≠ key ∧ other ∈ entries.map Prod.fst := by
  fun_induction without key entries <;> grind

theorem placed_distinct {key : κ} {value : α} {entries : List (κ × α)}
    (distinct : (entries.map Prod.fst).Nodup) : ((placed key value entries).map Prod.fst).Nodup := by
  fun_induction placed key value entries with
  | case1 => simp
  | case2 => exact distinct
  | case3 known old rest other ih =>
    rw [List.map_cons, List.nodup_cons] at distinct ⊢
    exact ⟨fun present => (mem_placed.mp present).elim other distinct.1, ih distinct.2⟩

theorem without_distinct {key : κ} {entries : List (κ × α)}
    (distinct : (entries.map Prod.fst).Nodup) : ((without key entries).map Prod.fst).Nodup := by
  fun_induction without key entries with
  | case1 => exact distinct
  | case2 value rest ih => exact ih (List.nodup_cons.mp distinct).2
  | case3 known value rest other ih =>
    rw [List.map_cons, List.nodup_cons] at distinct ⊢
    exact ⟨fun present => distinct.1 (mem_without.mp present).2, ih distinct.2⟩

theorem found_placed (key other : κ) (value : α) (entries : List (κ × α)) :
    found other (placed key value entries) = if other = key then some value else found other entries := by
  fun_induction placed key value entries <;> grind [found]

theorem found_without (key other : κ) (entries : List (κ × α)) :
    found other (without key entries) = if other = key then none else found other entries := by
  fun_induction without key entries <;> grind [found]

theorem found_isSome {key : κ} {entries : List (κ × α)} :
    (found key entries).isSome ↔ key ∈ entries.map Prod.fst := by
  fun_induction found key entries <;> grind

def empty : Table κ α := ⟨[], .nil⟩

instance : Inhabited (Table κ α) := ⟨empty⟩

def keys (table : Table κ α) : List κ := table.entries.map Prod.fst
def size (table : Table κ α) : Nat := table.entries.length
def get? (table : Table κ α) (key : κ) : Option α := found key table.entries
def contains (table : Table κ α) (key : κ) : Bool := (table.get? key).isSome
def put (table : Table κ α) (key : κ) (value : α) : Table κ α :=
  ⟨placed key value table.entries, placed_distinct table.distinct⟩
def erase (table : Table κ α) (key : κ) : Table κ α :=
  ⟨without key table.entries, without_distinct table.distinct⟩

def modify (table : Table κ α) (key : κ) (change : α → α) : Table κ α :=
  (table.get? key).elim table fun value => table.put key (change value)

@[simp] theorem get?_empty (key : κ) : (empty : Table κ α).get? key = none := rfl

theorem get?_put (table : Table κ α) (key other : κ) (value : α) :
    (table.put key value).get? other = if other = key then some value else table.get? other :=
  found_placed key other value table.entries

theorem get?_erase (table : Table κ α) (key other : κ) :
    (table.erase key).get? other = if other = key then none else table.get? other :=
  found_without key other table.entries

theorem get?_modify (table : Table κ α) (key other : κ) (change : α → α) :
    (table.modify key change).get? other =
      if other = key then (table.get? key).map change else table.get? other := by
  cases present : table.get? key <;> by_cases same : other = key <;> simp [modify, present, get?_put, same]

theorem mem_keys {table : Table κ α} {key : κ} : key ∈ table.keys ↔ (table.get? key).isSome :=
  found_isSome.symm

theorem contains_iff {table : Table κ α} {key : κ} : table.contains key = true ↔ key ∈ table.keys :=
  mem_keys.symm

theorem eq_empty {table : Table κ α} (bare : ∀ key, table.get? key = none) : table = empty := by
  obtain ⟨entries, distinct⟩ := table
  cases entries with
  | nil => rfl
  | cons first rest =>
    have there : get? ⟨first :: rest, distinct⟩ first.1 = some first.2 := by simp [get?, found]
    cases there.symm.trans (bare first.1)

end Table

def Text.sorted (names : List String) : List String := names.mergeSort fun a b => decide (a ≤ b)

end Lifespan
