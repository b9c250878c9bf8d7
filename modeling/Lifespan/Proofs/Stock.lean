import Mathlib.Data.List.Nodup
import Lifespan.Store

-- What a store holds: everything that was put in since it was last emptied, under the key of the first who
-- asked, in the order in which it came. The table and the order of the keys never part, so that emptying the
-- store gives back all of it, newest first.
namespace Lifespan

def stock (entries : List (String × Entry)) : List (String × InstanceRef) :=
  entries.map fun entry => (entry.1, entry.2.object)

theorem Entry.downcast_iff {entry : Entry} {object : InstanceRef} {type : String} :
    entry.downcast type = some object ↔ entry = ⟨object, type⟩ := by
  obtain ⟨held, stored⟩ := entry
  unfold Entry.downcast
  split
  · rename_i same
    simp [show stored = type from same]
  · rename_i other
    simp [show ¬stored = type from other]

namespace Store

structure Lists (store : Store) (stored : List (String × InstanceRef)) : Prop where
  order : store.order = stored.map Prod.fst
  found : ∀ key object, (key, object) ∈ stored → ∃ type, store.get? key = some ⟨object, type⟩
  known : ∀ key, (store.get? key).isSome → key ∈ store.order

structure Represents (store : Store) (taken : List (String × Entry)) : Prop where
  order : store.order = taken.map Prod.fst
  distinct : (taken.map Prod.fst).Nodup
  found : ∀ key entry, store.get? key = some entry ↔ (key, entry) ∈ taken

structure InStep (store : Store) : Prop where
  distinct : store.keys.Nodup
  same : store.keys.Perm store.entries.keys
  length : store.length = store.entries.size
  isEmpty : store.isEmpty = true ↔ store.length = 0
  contains : ∀ key, store.contains key = true ↔ key ∈ store.keys
  found : ∀ key, (store.get? key).isSome ↔ key ∈ store.keys

section
variable {store later : Store} {key name : String} {entry : Entry}

theorem insert_refused : store.insert key entry = none ↔ (store.get? key).isSome = true := by
  unfold insert
  split
  · rename_i old
    exact iff_of_true rfl old
  · rename_i new
    exact iff_of_false nofun new

theorem insert_absent (absent : store.get? key = none) :
    store.insert key entry = some ⟨store.entries.put key entry, store.order ++ [key]⟩ := by
  have new : ¬store.contains key = true := Option.not_isSome_iff_eq_none.mpr absent
  rw [insert, if_neg new]

theorem insert_get? (store : Store) (name : String) (entry : Entry) (key : String) :
    ((store.insert name entry).getD store).get? key = (store.get? key).or (if key = name then some entry else none) := by
  cases stands : store.get? name with
  | none =>
    rw [insert_absent stands, Option.getD_some, get?, Table.get?_put]
    by_cases same : key = name
    · rw [if_pos same, if_pos same, same, stands, Option.none_or]
    · rw [if_neg same, if_neg same, Option.or_none, get?]
  | some old =>
    rw [insert_refused.mpr (by rw [stands]; rfl), Option.getD_none]
    by_cases same : key = name
    · rw [same, stands, Option.some_or]
    · rw [if_neg same, Option.or_none]

theorem inserted_get? (accepted : store.insert name entry = some later) (key : String) :
    later.get? key = (store.get? key).or (if key = name then some entry else none) := by
  have stands := insert_get? store name entry key
  rwa [accepted, Option.getD_some] at stands

end

section
variable {names : List String} {left : Table String Entry} {key : String} {entry : Entry}

theorem takeOut_found (taken : (key, entry) ∈ (takeOut names left).1) : left.get? key = some entry := by
  induction names generalizing left with
  | nil => cases taken
  | cons first rest ih =>
    unfold takeOut at taken
    split at taken
    · exact ih taken
    · rename_i held found
      rcases List.mem_cons.mp taken with same | later
      · cases same
        exact found
      · have there := ih later
        rw [Table.get?_erase] at there
        split at there
        · cases there
        · exact there

theorem takeOut_left (names : List String) (left : Table String Entry) (key : String) :
    (takeOut names left).2.get? key = if key ∈ names then none else left.get? key := by
  fun_induction takeOut names left with
  | case1 => rfl
  | case2 name rest left absent ih =>
    rw [ih]
    by_cases same : key = name
    · simp [same, absent]
    · simp [same]
  | case3 name rest left entry present ih =>
    rw [ih, Table.get?_erase]
    by_cases same : key = name
    · simp [same]
    · simp [same]

-- Taking out some keys in turn gives what stands under them, whatever of it one looks at.
theorem takeOut_viewed {α : Type} {view : Entry → α} {stored : List (String × α)} (keys : (stored.map Prod.fst).Nodup)
    (found : ∀ key value, (key, value) ∈ stored → (left.get? key).map view = some value) :
    (takeOut (stored.map Prod.fst) left).1.map (fun one => (one.1, view one.2)) = stored := by
  induction stored generalizing left with
  | nil => rfl
  | cons first rest ih =>
    obtain ⟨key, value⟩ := first
    rw [List.map_cons, List.nodup_cons] at keys
    obtain ⟨entry, there, seen⟩ := Option.map_eq_some_iff.mp (found key value (List.mem_cons_self ..))
    have others : ∀ name other, (name, other) ∈ rest → ((left.erase key).get? name).map view = some other := by
      intro name other member
      have apart : name ≠ key := by
        rintro rfl
        exact keys.1 (List.mem_map.mpr ⟨_, member, rfl⟩)
      rw [Table.get?_erase, if_neg apart]
      exact found name other (List.mem_cons_of_mem _ member)
    have below := ih keys.2 others
    simp only [List.map_cons, takeOut, there, seen]
    exact congrArg _ below

end

theorem lists_empty : empty.Lists [] := ⟨rfl, nofun, nofun⟩

section
variable {store : Store} {stored : List (String × InstanceRef)} {key : String}

theorem Lists.holds (lists : store.Lists stored) {entry : Entry} (found : store.get? key = some entry) : (key, entry.object) ∈ stored := by
  have present := lists.known key (by rw [found]; rfl)
  rw [lists.order] at present
  obtain ⟨⟨name, object⟩, member, rfl⟩ := List.mem_map.mp present
  obtain ⟨type, there⟩ := lists.found name object member
  cases found.symm.trans there
  exact member

theorem Lists.absent (lists : store.Lists stored) : store.get? key = none ↔ key ∉ stored.map Prod.fst := by
  constructor
  · intro none present
    obtain ⟨⟨name, object⟩, member, rfl⟩ := List.mem_map.mp present
    obtain ⟨type, there⟩ := lists.found name object member
    cases none.symm.trans there
  · intro absent
    cases found : store.get? key with
    | none => rfl
    | some entry => exact absurd (lists.order ▸ lists.known key (by rw [found]; rfl)) absent

theorem Lists.insert (lists : store.Lists stored) (absent : key ∉ stored.map Prod.fst) (object : InstanceRef)
    (type : String) :
    ∃ later, store.insert key ⟨object, type⟩ = some later ∧ later.Lists (stored ++ [(key, object)]) := by
  have none := lists.absent.mpr absent
  have accepted : store.insert key ⟨object, type⟩ = some _ := insert_absent none
  refine ⟨_, accepted, ?_, ?_, ?_⟩
  · simp [lists.order]
  · intro name old member
    rw [inserted_get? accepted]
    rcases List.mem_append.mp member with there | new
    · obtain ⟨held, stands⟩ := lists.found name old there
      exact ⟨held, by rw [stands, Option.some_or]⟩
    · cases List.mem_singleton.mp new
      exact ⟨type, by rw [none, Option.none_or, if_pos rfl]⟩
  · intro name found
    rw [inserted_get? accepted, Option.isSome_or, Bool.or_eq_true] at found
    rcases found with old | new
    · exact List.mem_append_left _ (lists.known name old)
    · split at new
      · rename_i same; simp [same]
      · cases new

theorem Lists.drained (lists : store.Lists stored) (keys : (stored.map Prod.fst).Nodup) :
    stock store.drainNewestFirst.1 = stored.reverse := by
  unfold drainNewestFirst
  rw [lists.order, ← List.map_reverse]
  refine takeOut_viewed ?_ fun key object member => ?_
  · rw [List.map_reverse]
    exact List.nodup_reverse.mpr keys
  · obtain ⟨type, there⟩ := lists.found key object (List.mem_reverse.mp member)
    exact Option.map_eq_some_iff.mpr ⟨_, there, rfl⟩

end

section
variable {store : Store} {taken : List (String × Entry)} {key : String} {entry : Entry}

theorem represents_empty : empty.Represents [] := ⟨rfl, .nil, by simp [get?, empty]⟩

theorem Represents.known (represents : store.Represents taken) :
    (store.get? key).isSome = true ↔ key ∈ taken.map Prod.fst := by
  rw [Option.isSome_iff_exists]
  constructor
  · rintro ⟨entry, stands⟩
    exact List.mem_map_of_mem ((represents.found key entry).mp stands)
  · intro member
    obtain ⟨⟨name, entry⟩, there, rfl⟩ := List.mem_map.mp member
    exact ⟨entry, (represents.found name entry).mpr there⟩

theorem Represents.insert (represents : store.Represents taken) (new : key ∉ taken.map Prod.fst) (entry : Entry) :
    ∃ later, store.insert key entry = some later ∧ later.Represents (taken ++ [(key, entry)]) := by
  have absent : store.get? key = none := Option.not_isSome_iff_eq_none.mp (mt represents.known.mp new)
  have accepted : store.insert key entry = some _ := insert_absent absent
  refine ⟨_, accepted, ?_, ?_, ?_⟩
  · simp [represents.order]
  · rw [List.map_append, List.nodup_append]
    refine ⟨represents.distinct, by simp, fun old member last there => ?_⟩
    cases List.mem_singleton.mp there
    rintro rfl
    exact new member
  · intro name other
    rw [inserted_get? accepted, List.mem_append, List.mem_singleton, Prod.mk.injEq]
    by_cases same : name = key
    · subst same
      have unseen : (name, other) ∉ taken := fun member => new (List.mem_map_of_mem member)
      simp [absent, unseen, eq_comm]
    · simpa [same] using represents.found name other

theorem Represents.drained (represents : store.Represents taken) : store.drainNewestFirst = (taken.reverse, .empty) := by
  have names : store.order.reverse = taken.reverse.map Prod.fst := by rw [represents.order, List.map_reverse]
  have out : (takeOut store.order.reverse store.entries).1 = taken.reverse := by
    have distinct : (taken.reverse.map Prod.fst).Nodup := by
      rw [List.map_reverse]
      exact List.nodup_reverse.mpr represents.distinct
    have all : (takeOut (taken.reverse.map Prod.fst) store.entries).1.map (fun one => (one.1, id one.2)) = taken.reverse := by
      refine takeOut_viewed distinct fun key entry member => ?_
      rw [Option.map_id]
      exact (represents.found key entry).mpr (List.mem_reverse.mp member)
    rw [names]
    simpa using all
  have left : (takeOut store.order.reverse store.entries).2 = .empty := by
    refine Table.eq_empty fun key => ?_
    rw [takeOut_left]
    split
    · rfl
    · rename_i away
      rw [List.mem_reverse, represents.order, ← represents.known] at away
      exact Option.not_isSome_iff_eq_none.mp away
  rw [drainNewestFirst, out, left]
  rfl

theorem Represents.inStep (represents : store.Represents taken) : store.InStep := by
  have known : ∀ key, (store.get? key).isSome = true ↔ key ∈ store.keys := by
    intro key
    rw [keys, represents.order]
    exact represents.known
  have distinct : store.keys.Nodup := by
    rw [keys, represents.order]
    exact represents.distinct
  have same : store.keys.Perm store.entries.keys :=
    (List.perm_ext_iff_of_nodup distinct store.entries.distinct).mpr fun key => (known key).symm.trans Table.mem_keys.symm
  refine ⟨distinct, same, ?_, ?_, fun key => Table.contains_iff.trans same.mem_iff.symm, known⟩
  · rw [length, ← keys, same.length_eq, Table.keys, List.length_map, Table.size]
  · rw [isEmpty, length, List.isEmpty_iff, List.length_eq_zero_iff]

end

inductive Use
  | insert (key : String) (object : InstanceRef) (type : String)
  | drain

def used : List Use → Store
  | [] => .empty
  | .insert key object type :: earlier => ((used earlier).insert key ⟨object, type⟩).getD (used earlier)
  | .drain :: earlier => (used earlier).drainNewestFirst.2

def offered : List Use → List (String × Entry)
  | [] => []
  | .insert key object type :: earlier => offered earlier ++ [(key, ⟨object, type⟩)]
  | .drain :: _ => []

def taken : List Use → List (String × Entry)
  | [] => []
  | .insert key object type :: earlier =>
    if ((used earlier).insert key ⟨object, type⟩).isSome then taken earlier ++ [(key, ⟨object, type⟩)] else taken earlier
  | .drain :: _ => []

def firstOffer (uses : List Use) (key : String) : Option Entry :=
  ((offered uses).find? fun one => one.1 = key).map Prod.snd

theorem used_represents (uses : List Use) : (used uses).Represents (taken uses) := by
  induction uses with
  | nil => exact represents_empty
  | cons use earlier ih =>
    cases use with
    | insert key object type =>
      by_cases old : key ∈ (taken earlier).map Prod.fst
      · have refused : (used earlier).insert key ⟨object, type⟩ = none := insert_refused.mpr (ih.known.mpr old)
        simpa [used, taken, refused] using ih
      · obtain ⟨later, accepted, represents⟩ := ih.insert old ⟨object, type⟩
        simpa [used, taken, accepted] using represents
    | drain =>
      rw [used, ih.drained]
      exact represents_empty

theorem firstOffer_insert (uses : List Use) (name : String) (object : InstanceRef) (type key : String) :
    firstOffer (.insert name object type :: uses) key =
      (firstOffer uses key).or (if key = name then some ⟨object, type⟩ else none) := by
  simp only [firstOffer, offered, List.find?_append, Option.map_or]
  by_cases same : key = name
  · simp [same]
  · simp [same, Ne.symm same]

theorem used_first (uses : List Use) (key : String) : (used uses).get? key = firstOffer uses key := by
  induction uses with
  | nil => rfl
  | cons use earlier ih =>
    cases use with
    | insert name object type => rw [used, insert_get?, ih, firstOffer_insert]
    | drain =>
      rw [used, (used_represents earlier).drained]
      rfl

-- Whatever is inserted and drained, in any order and under any keys and types: the order and the table of a store
-- stay in step, a key has what was first offered under it since the last drain, anything later is refused without
-- a change, and it is given to whoever asks for the type that it was offered as and to nobody else. The order is
-- that of the inserts which were not refused, and a drain gives back each of their entries once, the latest first,
-- and leaves neither a key nor an entry.
theorem store_in_step (uses : List Use) :
    (used uses).InStep ∧ (used uses).keys = (taken uses).map Prod.fst ∧
    (∀ key, (used uses).get? key = firstOffer uses key) ∧
    (∀ key object type, ((used uses).insert key ⟨object, type⟩ = none ↔ (firstOffer uses key).isSome = true) ∧
      ((firstOffer uses key).isSome = true → used (.insert key object type :: uses) = used uses)) ∧
    (∀ key type object, ((used uses).get? key).bind (·.downcast type) = some object ↔ firstOffer uses key = some ⟨object, type⟩) ∧
    (used uses).drainNewestFirst = ((taken uses).reverse, .empty) ∧
    ∀ key entry, (used uses).drainNewestFirst.1.count (key, entry) = if (used uses).get? key = some entry then 1 else 0 := by
  have represents := used_represents uses
  have first := used_first uses
  refine ⟨represents.inStep, represents.order, first, fun key object type => ?_, fun key type object => ?_, represents.drained, ?_⟩
  · have refused : (used uses).insert key ⟨object, type⟩ = none ↔ (firstOffer uses key).isSome = true := by
      rw [insert_refused, first]
    refine ⟨refused, fun offered => ?_⟩
    rw [used, refused.mpr offered, Option.getD_none]
  · rw [← first, Option.bind_eq_some_iff]
    simp only [Entry.downcast_iff, exists_eq_right]
  · intro key entry
    have once : (taken uses).Nodup := List.Nodup.of_map Prod.fst represents.distinct
    rw [represents.drained, List.count_reverse, once.count]
    simp only [represents.found]

example : (used [.insert "a" (.loose 2) "Text", .insert "b" (.loose 1) "Text", .insert "a" (.loose 0) "Number"]).drainNewestFirst.1 =
    [("b", ⟨.loose 1, "Text"⟩), ("a", ⟨.loose 0, "Number"⟩)] := by decide

end Store
end Lifespan
