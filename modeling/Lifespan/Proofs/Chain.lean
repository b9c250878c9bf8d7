import Mathlib.Data.Finset.Card
import Mathlib.Logic.Relation
import Lifespan.Gates

-- What the look along the waiting threads finds out: whether whoever builds a key waits, over
-- however many others, for the thread that asks. While nobody waits for himself, a thread that
-- was let in by that look closes no circle.
namespace Lifespan
namespace Gates
open Relation

variable {gates later : Gates} {me waiter builder : ThreadId} {key : String} {fresh : GateRef}

def Follows (gates : Gates) (waiter builder : ThreadId) : Prop := gates.nextOwner waiter = some builder

def Closes (gates : Gates) (key : String) (me : ThreadId) : Prop :=
  ∃ owner, gates.owners.get? key = some owner ∧ ReflTransGen gates.Follows owner me

def Acyclic (gates : Gates) : Prop := ∀ thread, ¬TransGen gates.Follows thread thread

theorem follows_iff : gates.Follows waiter builder ↔
    ∃ key, gates.waiting.get? waiter = some key ∧ gates.owners.get? key = some builder :=
  Option.bind_eq_some_iff

def reached (gates : Gates) : Nat → ThreadId → Option ThreadId
  | 0, thread => some thread
  | far + 1, thread => (gates.nextOwner thread).bind (gates.reached far)

theorem reached_add (near far : Nat) (thread : ThreadId) :
    gates.reached (near + far) thread = (gates.reached near thread).bind (gates.reached far) := by
  induction near generalizing thread with
  | zero => simp [reached]
  | succ near ih =>
    rw [Nat.succ_add, reached, reached, Option.bind_assoc]
    exact Option.bind_congr fun next _ => ih next

theorem reached_follows (there : gates.reached far waiter = some builder) :
    ReflTransGen gates.Follows waiter builder := by
  induction far generalizing waiter with
  | zero => cases there; exact .refl
  | succ far ih =>
    obtain ⟨next, follows, there⟩ := Option.bind_eq_some_iff.mp there
    exact .head follows (ih there)

theorem follows_reached (path : ReflTransGen gates.Follows waiter builder) :
    ∃ far, gates.reached far waiter = some builder := by
  induction path using ReflTransGen.head_induction_on with
  | refl => exact ⟨0, rfl⟩
  | head follows _ ih =>
    obtain ⟨far, there⟩ := ih
    exact ⟨far + 1, by rw [reached, show gates.nextOwner _ = _ from follows]; exact there⟩

theorem passed_waits (there : gates.reached far waiter = some builder) (before : near < far) :
    gates.reached near waiter ∈ (gates.waiting.keys.map some).toFinset := by
  obtain ⟨left, rfl⟩ := Nat.exists_eq_add_of_lt before
  rw [Nat.add_assoc, reached_add] at there
  obtain ⟨passed, here, further⟩ := Option.bind_eq_some_iff.mp there
  obtain ⟨next, follows, _⟩ := Option.bind_eq_some_iff.mp further
  obtain ⟨key, waits, _⟩ := follows_iff.mp follows
  rw [here, List.mem_toFinset]
  exact List.mem_map_of_mem (Table.mem_keys.mpr (by rw [waits]; rfl))

theorem shortened (there : gates.reached far waiter = some builder) (before : two ≤ far)
    (same : gates.reached one waiter = gates.reached two waiter) :
    gates.reached (one + (far - two)) waiter = some builder := by
  rw [reached_add, same, ← reached_add, Nat.add_sub_of_le before]
  exact there

-- As many looks as there are waiting threads, and one, get as far as any number of looks.
theorem reached_near (there : gates.reached far waiter = some builder) :
    ∃ near ≤ gates.waiting.size, gates.reached near waiter = some builder := by
  induction far using Nat.strong_induction_on with
  | _ far ih =>
    by_cases short : far ≤ gates.waiting.size
    · exact ⟨far, short, there⟩
    have few : (gates.waiting.keys.map some).toFinset.card < (Finset.range far).card := by
      have bound := List.toFinset_card_le (gates.waiting.keys.map some)
      have count : (gates.waiting.keys.map some).length = gates.waiting.size := by simp [Table.keys, Table.size]
      rw [Finset.card_range]
      omega
    obtain ⟨one, first, two, second, apart, same⟩ := Finset.exists_ne_map_eq_of_card_lt_of_maps_to few
      fun near before => passed_waits there (Finset.mem_range.mp before)
    rw [Finset.mem_range] at first second
    rcases Nat.lt_or_gt_of_ne apart with less | less
    · exact ih _ (by omega) (shortened there (Nat.le_of_lt second) same)
    · exact ih _ (by omega) (shortened there (Nat.le_of_lt first) same.symm)

theorem walk_iff : gates.walk me looks (some waiter) = true ↔ ∃ far < looks, gates.reached far waiter = some me := by
  induction looks generalizing waiter with
  | zero => simp [walk]
  | succ looks ih =>
    by_cases here : waiter = me
    · simp only [walk, here, if_true, true_iff]
      exact ⟨0, Nat.succ_pos _, rfl⟩
    have onward : gates.walk me (looks + 1) (some waiter) = gates.walk me looks (gates.nextOwner waiter) := by
      simp [walk, here]
    rw [onward]
    constructor
    · intro found
      cases next : gates.nextOwner waiter with
      | none => rw [next] at found; cases looks <;> cases found
      | some owner =>
        rw [next] at found
        obtain ⟨far, less, there⟩ := ih.mp found
        exact ⟨far + 1, Nat.succ_lt_succ less, by rw [reached, next]; exact there⟩
    · rintro ⟨far, less, there⟩
      cases far with
      | zero => exact absurd (Option.some.inj there) here
      | succ far =>
        obtain ⟨owner, next, there⟩ := Option.bind_eq_some_iff.mp there
        rw [next]
        exact ih.mpr ⟨far, Nat.lt_of_succ_lt_succ less, there⟩

-- The look tells exactly whether waiting would never end.
theorem closes_iff : gates.waitsOn key me = true ↔ gates.Closes key me := by
  unfold waitsOn Closes
  cases owned : gates.owners.get? key with
  | none => simp [walk]
  | some owner =>
    simp only [walk_iff, Option.some.injEq, exists_eq_left']
    constructor
    · rintro ⟨far, _, there⟩
      exact reached_follows there
    · intro path
      obtain ⟨far, there⟩ := follows_reached path
      obtain ⟨near, less, there⟩ := reached_near there
      exact ⟨near, Nat.lt_succ_of_le less, there⟩

section
variable {r s : ThreadId → ThreadId → Prop}

-- New waits of one thread, each for someone who does not come back to it.
theorem joined (edges : ∀ one two, s one two → r one two ∨ one = me ∧ ¬ReflTransGen r two me)
    (path : TransGen s one two) :
    TransGen r one two ∨ ReflTransGen r one me ∧ ∃ next, ¬ReflTransGen r next me ∧ ReflTransGen r next two := by
  induction path with
  | single edge =>
    rcases edges _ _ edge with old | ⟨rfl, away⟩
    · exact .inl (.single old)
    · exact .inr ⟨.refl, _, away, .refl⟩
  | tail _ edge ih =>
    rcases edges _ _ edge with old | ⟨rfl, away⟩
    · exact ih.imp (·.tail old) (And.imp_right fun ⟨next, aside, on⟩ => ⟨next, aside, on.tail old⟩)
    · rcases ih with there | ⟨_, next, aside, back⟩
      · exact .inr ⟨there.to_reflTransGen, _, away, .refl⟩
      · exact absurd back aside

theorem sunk (edges : ∀ one two, s one two → r one two ∨ two = me) (idle : ∀ other, ¬s me other)
    (path : TransGen s one two) : TransGen r one two ∨ two = me := by
  induction path with
  | single edge => exact (edges _ _ edge).imp_left .single
  | tail _ edge ih =>
    rcases ih with there | rfl
    · exact (edges _ _ edge).imp_left there.tail
    · exact absurd edge (idle _)

end

theorem Acyclic.mono (acyclic : gates.Acyclic) (edges : ∀ one two, later.Follows one two → gates.Follows one two) :
    later.Acyclic :=
  fun thread circle => acyclic thread (TransGen.mono edges _ _ circle)

theorem empty_acyclic : empty.Acyclic := by
  intro thread circle
  obtain ⟨next, edge, _⟩ := TransGen.head'_iff.mp circle
  cases edge

theorem queue_owners : (gates.queue key me fresh).2.owners = gates.owners := by
  unfold queue
  split <;> rfl

theorem queue_waiting : (gates.queue key me fresh).2.waiting = gates.waiting.put me key := by
  unfold queue
  split <;> rfl

theorem queue_acyclic (acyclic : gates.Acyclic) (clear : gates.waitsOn key me = false) :
    (gates.queue key me fresh).2.Acyclic := by
  have edges : ∀ one two, (gates.queue key me fresh).2.Follows one two →
      gates.Follows one two ∨ one = me ∧ ¬ReflTransGen gates.Follows two me := by
    intro one two edge
    obtain ⟨wanted, waits, owns⟩ := follows_iff.mp edge
    rw [queue_waiting, Table.get?_put] at waits
    rw [queue_owners] at owns
    split at waits
    · rename_i mine
      cases waits
      exact .inr ⟨mine, fun back => by cases clear.symm.trans (closes_iff.mpr ⟨two, owns, back⟩)⟩
    · exact .inl (follows_iff.mpr ⟨wanted, waits, owns⟩)
  intro thread circle
  rcases joined edges circle with old | ⟨there, next, aside, back⟩
  · exact acyclic thread old
  · exact aside (back.trans there)

theorem start_acyclic (acyclic : gates.Acyclic) : (gates.start key me).Acyclic := by
  have idle : ∀ other, ¬(gates.start key me).Follows me other := by
    intro other edge
    obtain ⟨wanted, waits, _⟩ := follows_iff.mp edge
    rw [start, Table.get?_erase, if_pos rfl] at waits
    cases waits
  have edges : ∀ one two, (gates.start key me).Follows one two → gates.Follows one two ∨ two = me := by
    intro one two edge
    obtain ⟨wanted, waits, owns⟩ := follows_iff.mp edge
    rw [start, Table.get?_erase] at waits
    rw [start, Table.get?_put] at owns
    split at waits
    · cases waits
    · split at owns
      · exact .inr (Option.some.inj owns).symm
      · exact .inl (follows_iff.mpr ⟨wanted, waits, owns⟩)
  intro thread circle
  rcases sunk edges idle circle with old | rfl
  · exact acyclic thread old
  · obtain ⟨next, edge, _⟩ := TransGen.head'_iff.mp circle
    exact idle next edge

theorem finish_acyclic (acyclic : gates.Acyclic) : (gates.finish key me).Acyclic := by
  refine acyclic.mono fun one two edge => ?_
  obtain ⟨wanted, waits, owns⟩ := follows_iff.mp edge
  rw [finish, Table.get?_erase] at owns
  split at owns
  · cases owns
  · exact follows_iff.mpr ⟨wanted, waits, owns⟩

end Gates
end Lifespan
