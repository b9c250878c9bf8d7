import Lifespan.Proofs.Chain

-- The look along the waiting threads, against the same walk without a bound. In any table, also in one where
-- others wait for each other in a circle, one look more than there are waiting threads finds whoever the walk
-- ever comes to; and with one look less there are lines of waiting threads whose end is missed.
namespace Lifespan
namespace Gates

variable {gates : Gates} {me thread : ThreadId} {key : String} {steps far : Nat}

-- Whom the walk comes to after so many steps, unless it has ended before: the owner of the key, and from
-- anyone the owner of the key that he waits for.
def stop (gates : Gates) (key : String) : Nat → Option ThreadId
  | 0 => gates.owners.get? key
  | steps + 1 => do
    let thread ← gates.stop key steps
    let wanted ← gates.waiting.get? thread
    gates.owners.get? wanted

theorem stop_succ : gates.stop key (steps + 1) = (gates.stop key steps).bind gates.nextOwner := rfl

theorem stop_reached (steps : Nat) : gates.stop key steps = (gates.owners.get? key).bind (gates.reached steps) := by
  induction steps with
  | zero =>
    cases owned : gates.owners.get? key <;> simp [stop, reached, owned]
  | succ steps ih =>
    rw [stop_succ, ih, Option.bind_assoc]
    refine Option.bind_congr fun owner _ => ?_
    have last : gates.reached 1 = gates.nextOwner := by
      funext thread
      simp [reached]
    rw [reached_add, last]

theorem stop_near (there : gates.stop key far = some thread) :
    ∃ near ≤ gates.waiting.size, gates.stop key near = some thread := by
  rw [stop_reached] at there
  obtain ⟨owner, owns, there⟩ := Option.bind_eq_some_iff.mp there
  obtain ⟨near, less, there⟩ := reached_near there
  exact ⟨near, less, by rw [stop_reached, owns]; exact there⟩

theorem walk_stops (looks : Nat) :
    gates.walk me looks (gates.owners.get? key) = true ↔ ∃ steps < looks, gates.stop key steps = some me := by
  simp only [stop_reached]
  cases gates.owners.get? key with
  | none => cases looks <;> simp [walk]
  | some owner => exact walk_iff

theorem ended_stays (ended : gates.stop key steps = none) (later : steps ≤ far) : gates.stop key far = none := by
  induction later with
  | refl => exact ended
  | step _ ih => rw [stop_succ, ih]; rfl

-- A walk that ever ends has ended by the last look, as its last stop has been one before.
theorem ended_near (ended : gates.stop key far = none) : gates.stop key (gates.waiting.size + 1) = none := by
  induction far with
  | zero => exact ended_stays ended (Nat.zero_le _)
  | succ far ih =>
    cases last : gates.stop key far with
    | none => exact ih last
    | some thread =>
      obtain ⟨near, less, there⟩ := stop_near last
      have silent : gates.stop key (near + 1) = none := by
        rw [stop_succ, there, ← last]
        exact ended
      exact ended_stays silent (Nat.succ_le_succ less)

theorem walk_enough (less : gates.waiting.size < looks) :
    gates.walk me looks (gates.owners.get? key) = true ↔ ∃ steps, gates.stop key steps = some me := by
  rw [walk_stops]
  constructor
  · rintro ⟨steps, _, there⟩
    exact ⟨steps, there⟩
  · rintro ⟨steps, there⟩
    obtain ⟨near, short, there⟩ := stop_near there
    exact ⟨near, Nat.lt_of_le_of_lt short less, there⟩

-- For any table, key and thread the look tells whether the walk without a bound ever comes to the thread. Any
-- number of looks finds exactly whom the walk comes to in fewer steps, no number beyond the bound finds anyone
-- more, and a walk that has not ended by then goes on for ever among those it has already been to.
theorem bounded_walk_full (gates : Gates) (key : String) (me : ThreadId) :
    (gates.waitsOn key me = true ↔ ∃ steps, gates.stop key steps = some me) ∧
    (∀ looks, gates.walk me looks (gates.owners.get? key) = true ↔ ∃ steps < looks, gates.stop key steps = some me) ∧
    (∀ more, gates.walk me (gates.waiting.size + 1 + more) (gates.owners.get? key) = gates.waitsOn key me) ∧
    (gates.stop key (gates.waiting.size + 1) = none ∨
      ∀ far, ∃ near ≤ gates.waiting.size, ∃ thread, gates.stop key near = some thread ∧ gates.stop key far = some thread) := by
  have found : gates.waitsOn key me = true ↔ ∃ steps, gates.stop key steps = some me := walk_enough (Nat.lt_succ_self _)
  refine ⟨found, walk_stops, fun more => ?_, ?_⟩
  · rw [Bool.eq_iff_iff, found]
    exact walk_enough (by omega)
  · cases last : gates.stop key (gates.waiting.size + 1) with
    | none => exact .inl rfl
    | some thread =>
      refine .inr fun far => ?_
      cases here : gates.stop key far with
      | none => cases last.symm.trans (ended_near here)
      | some thread =>
        obtain ⟨near, less, there⟩ := stop_near here
        exact ⟨near, less, thread, there, rfl⟩

example : ({ empty with
    owners := (Table.empty.put "left" 1).put "right" 2
    waiting := (Table.empty.put 1 "right").put 2 "left" } : Gates).waitsOn "left" 0 = false := by decide

def placeKey (place : Nat) : String := String.ofList (List.replicate place 'k')

theorem placeKey_injective : Function.Injective placeKey := by
  intro one two same
  have lengths := congrArg String.length same
  simpa [placeKey] using lengths

def line (waiters : Nat) : Gates where
  gates := .empty
  owners := ⟨(List.range (waiters + 1)).map fun place => (placeKey place, place), by
    rw [List.map_map]
    exact List.nodup_range.map placeKey_injective⟩
  waiting := ⟨(List.range waiters).map fun place => (place, placeKey (place + 1)), by
    rw [List.map_map]
    exact List.nodup_range.map Function.injective_id⟩
  building := .empty

theorem found_listed {α κ : Type} [DecidableEq κ] {named : Nat → κ} (apart : Function.Injective named) (value : Nat → α)
    (places : List Nat) (place : Nat) :
    Table.found (named place) (places.map fun one => (named one, value one)) = if place ∈ places then some (value place) else none := by
  induction places with
  | nil => rfl
  | cons first rest ih =>
    by_cases same : first = place
    · simp [Table.found, same]
    · simp [Table.found, apart.ne same, Ne.symm same, ih]

theorem line_owner (waiters place : Nat) :
    (line waiters).owners.get? (placeKey place) = if place < waiters + 1 then some place else none := by
  refine (found_listed placeKey_injective id (List.range (waiters + 1)) place).trans ?_
  simp only [List.mem_range, id]

theorem line_waits (waiters place : Nat) :
    (line waiters).waiting.get? place = if place < waiters then some (placeKey (place + 1)) else none := by
  refine (found_listed Function.injective_id (fun one => placeKey (one + 1)) (List.range waiters) place).trans ?_
  simp only [List.mem_range]

theorem line_stops (waiters steps : Nat) :
    (line waiters).stop (placeKey 0) steps = if steps < waiters + 1 then some steps else none := by
  induction steps with
  | zero => exact line_owner waiters 0
  | succ steps ih =>
    rw [stop_succ, ih]
    split
    · rw [Option.bind_some, nextOwner, line_waits]
      by_cases before : steps < waiters
      · rw [if_pos before, Option.bind_some, line_owner]
      · rw [if_neg before, Option.bind_none, if_neg (by omega)]
    · rw [Option.bind_none, if_neg (by omega)]

-- The bound is the least one: with any number of waiting threads there is a table where as many looks as these
-- do not yet get to whoever is asked for, and one look more does.
theorem fewer_looks_miss (waiters : Nat) :
    (line waiters).waiting.size = waiters ∧ (line waiters).waitsOn (placeKey 0) waiters = true ∧
      (line waiters).walk waiters waiters ((line waiters).owners.get? (placeKey 0)) = false := by
  have only : ∀ steps, (line waiters).stop (placeKey 0) steps = some waiters ↔ steps = waiters := by
    intro steps
    rw [line_stops]
    split <;> grind
  have size : (line waiters).waiting.size = waiters := by simp [line, Table.size]
  refine ⟨size, ?_, ?_⟩
  · exact (walk_enough (Nat.lt_succ_self _)).mpr ⟨waiters, (only _).mpr rfl⟩
  · rw [← Bool.not_eq_true, walk_stops]
    rintro ⟨steps, less, there⟩
    exact absurd ((only steps).mp there) (Nat.ne_of_lt less)

end Gates
end Lifespan
