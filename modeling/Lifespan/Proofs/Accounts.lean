import Lifespan.Proofs.Ending

-- The books of a scope: what its cell says about shares, turns, gates and builders is what the
-- threads are in the middle of. Each rule of a construction keeps the books of its own thread and
-- leaves those of the others alone.
namespace Lifespan
variable {C : Client}

namespace Gates
variable {gates : Gates} {me : ThreadId} {key : String} {fresh : GateRef}

def Positive (gates : Gates) : Prop := ∀ thread, gates.building.get? thread ≠ some 0

theorem queue_building : (gates.queue key me fresh).2.building = gates.building := by
  unfold queue
  split <;> rfl

theorem depth_queue : (gates.queue key me fresh).2.depth thread = gates.depth thread := by
  simp [depth, queue_building]

theorem depth_start : (gates.start key me).depth thread = if thread = me then gates.depth me + 1 else gates.depth thread := by
  simp only [depth, start, Table.get?_put]
  split <;> simp

theorem depth_finish : (gates.finish key me).depth thread = if thread = me then gates.depth me - 1 else gates.depth thread := by
  simp only [depth, finish]
  cases found : gates.building.get? me with
  | none => split <;> simp_all
  | some count =>
    dsimp only
    split
    · rename_i last
      simp only [Table.get?_erase]
      split <;> simp [last]
    · simp only [Table.get?_put]
      split <;> simp

theorem positive_queue (positive : gates.Positive) : (gates.queue key me fresh).2.Positive := by
  intro thread
  rw [queue_building]
  exact positive thread

theorem positive_start (positive : gates.Positive) : (gates.start key me).Positive := by
  intro thread
  simp only [start, Table.get?_put]
  split
  · simp
  · exact positive thread

theorem positive_finish (positive : gates.Positive) : (gates.finish key me).Positive := by
  intro thread
  simp only [finish]
  split
  · exact positive thread
  · split
    · simp only [Table.get?_erase]
      split
      · simp
      · exact positive thread
    · rename_i more
      simp only [Table.get?_put]
      split
      · simpa using more
      · exact positive thread

theorem isBuilding_iff (positive : gates.Positive) : gates.isBuilding me = true ↔ 0 < gates.depth me := by
  have counted := positive me
  simp only [isBuilding, Table.contains, depth]
  cases found : gates.building.get? me with
  | none => simp
  | some count =>
    rw [found] at counted
    simp only [ne_eq, Option.some.injEq] at counted
    simp [Nat.pos_of_ne_zero counted]

end Gates

namespace Build
variable {cell : Scope C} {effect : Effect C} {items : List (Item C)} {held holds : List Grip} {me other : ThreadId}
  {scope : ScopeRef}

theorem shares (build : Build scope cell me held effect items holds) (count : cell.sharing.count me = held.length + rest) :
    (effect.change me cell).sharing.count me = holds.length + rest := by
  cases build with
  | share => simp only [Effect.change, List.count_cons_self, count, List.length_nil, List.length_singleton]; omega
  | unshare => simp only [Effect.change, List.count_erase_self, count, List.length_singleton, List.length_nil]; omega
  | _ => exact count

theorem others_shares (build : Build scope cell me held effect items holds) (apart : other ≠ me) :
    (effect.change me cell).sharing.count other = cell.sharing.count other := by
  cases build with
  | share => exact List.count_cons_of_ne apart.symm
  | unshare => exact List.count_erase_of_ne apart
  | _ => rfl

theorem queued_turns (key : String) (gate : GateRef) (thread : ThreadId) :
    (cell.queued key me).turns[gate]? = some (some thread) ↔ cell.turns[gate]? = some (some thread) := by
  simp only [Scope.queued]
  split
  · rfl
  · rw [List.getElem?_append]
    split
    · rfl
    · rename_i beyond
      rw [List.getElem?_eq_none (Nat.le_of_not_lt beyond)]
      grind

theorem turns (build : Build scope cell me held effect items holds) (gate : GateRef)
    (count : held.countP (·.turn? = some gate) + rest = if cell.turns[gate]? = some (some me) then 1 else 0) :
    holds.countP (·.turn? = some gate) + rest =
      if (effect.change me cell).turns[gate]? = some (some me) then 1 else 0 := by
  cases build with
  | queue => simpa [Effect.change, queued_turns, Grip.turn?] using count
  | @seize turn key free =>
    by_cases same : turn = gate
    · subst same
      have none : rest = 0 := by simpa [Grip.turn?, free] using count
      have inside := (List.getElem?_eq_some_iff.mp free).1
      simp [Effect.change, Grip.turn?, inside, none]
    · simpa [Effect.change, Grip.turn?, same] using count
  | @yield turn =>
    by_cases same : turn = gate
    · subst same
      have none : rest = 0 := by
        simp only [Grip.turn?, List.countP_singleton, decide_true, if_true] at count
        split at count <;> omega
      simp [Effect.change, Grip.turn?, none, List.getElem?_set]
    · simpa [Effect.change, Grip.turn?, same] using count
  | done _ built => rcases built with rfl | rfl | ⟨object, rfl⟩ <;> exact count
  | _ => exact count

theorem others_turns (build : Build scope cell me held effect items holds) (apart : other ≠ me) (gate : GateRef)
    (mine : ∀ grip ∈ held, grip.turn? = some gate → cell.turns[gate]? = some (some me)) :
    (effect.change me cell).turns[gate]? = some (some other) ↔ cell.turns[gate]? = some (some other) := by
  cases build with
  | queue => exact queued_turns _ _ _
  | @seize turn key free =>
    by_cases same : turn = gate
    · subst same
      have inside := (List.getElem?_eq_some_iff.mp free).1
      simp only [Effect.change, List.getElem?_set_self inside, free]
      simp [apart.symm]
    · simp [Effect.change, same]
  | @yield turn =>
    by_cases same : turn = gate
    · subst same
      have taken := mine _ (List.mem_singleton.mpr rfl) rfl
      simp [Effect.change, taken, List.getElem?_set, apart.symm]
    · simp [Effect.change, same]
  | _ => rfl

theorem gates_kept (build : Build scope cell me held effect items holds) (known : cell.gates.gates.get? key = some gate) :
    (effect.change me cell).gates.gates.get? key = some gate := by
  cases build with
  | @queue wanted =>
    simp only [Effect.change, Scope.queued, Gates.queue]
    cases found : cell.gates.gates.get? wanted with
    | some _ => exact known
    | none =>
      simp only [Table.get?_put]
      split
      · rename_i same
        cases (same ▸ known).symm.trans found
      · exact known
  | _ => exact known

theorem gates (build : Build scope cell me held effect items holds)
    (known : ∀ grip ∈ held, ∀ key gate, grip.gate? = some (key, gate) → cell.gates.gates.get? key = some gate) :
    ∀ grip ∈ holds, ∀ key gate, grip.gate? = some (key, gate) →
      (effect.change me cell).gates.gates.get? key = some gate := by
  intro grip member key gate same
  cases build with
  | @queue wanted =>
    cases List.mem_singleton.mp member
    cases same
    simp only [Effect.change, Scope.queued, Gates.queue]
    cases found : cell.gates.gates.get? key with
    | some _ => exact found
    | none => simp [Table.get?_put]
  | unshare => cases member
  | done _ built =>
    cases List.mem_singleton.mp member
    rcases built with rfl | rfl | ⟨object, rfl⟩ <;> exact known _ (List.mem_singleton.mpr rfl) key gate same
  | seize | start | make | keep =>
    cases List.mem_singleton.mp member
    exact known _ (List.mem_singleton.mpr rfl) key gate same
  | _ => cases List.mem_singleton.mp member; cases same

theorem depth (build : Build scope cell me held effect items holds)
    (count : cell.gates.depth me = held.countP Grip.builds + rest) :
    (effect.change me cell).gates.depth me = holds.countP Grip.builds + rest := by
  cases build with
  | queue => simpa [Effect.change, Scope.queued, Gates.depth_queue, Grip.builds] using count
  | start =>
    simp only [Effect.change, Gates.depth_start, if_true, count, Grip.builds, List.countP_singleton]
    simp [Nat.add_comm]
  | finish =>
    simp only [Effect.change, Gates.depth_finish, if_true, count, Grip.builds, List.countP_singleton]
    simp
  | done _ built => rcases built with rfl | rfl | ⟨object, rfl⟩ <;> exact count
  | _ => exact count

theorem others_depth (build : Build scope cell me held effect items holds) (apart : other ≠ me) :
    (effect.change me cell).gates.depth other = cell.gates.depth other := by
  cases build with
  | queue => simp [Effect.change, Scope.queued, Gates.depth_queue]
  | start => simp [Effect.change, Gates.depth_start, apart]
  | finish => simp [Effect.change, Gates.depth_finish, apart]
  | _ => rfl

theorem positive (build : Build scope cell me held effect items holds) (positive : cell.gates.Positive) :
    (effect.change me cell).gates.Positive := by
  cases build with
  | queue => exact Gates.positive_queue positive
  | start => exact Gates.positive_start positive
  | finish => exact Gates.positive_finish positive
  | _ => exact positive

end Build

namespace Life
variable {life before after : Life C} {shaken aided : Prop} {scope : ScopeRef} {me : ThreadId}

structure Accounts (life : Life C) : Prop where
  shares : ∀ thread, life.cell.sharing.count thread = (life.grips thread).length
  turns : ∀ thread gate, (life.grips thread).countP (·.turn? = some gate) =
    if life.cell.turns[gate]? = some (some thread) then 1 else 0
  gates : ∀ thread, ∀ grip ∈ life.grips thread, ∀ key gate, grip.gate? = some (key, gate) →
    life.cell.gates.gates.get? key = some gate
  depth : ∀ thread, life.cell.gates.depth thread = (life.grips thread).countP Grip.builds
  positive : life.cell.gates.Positive

theorem Untouched.accounts (untouched : life.Untouched) : life.Accounts := by
  refine ⟨fun thread => ?_, fun thread gate => ?_, fun thread grip member => ?_, fun thread => ?_, fun thread => ?_⟩
  all_goals simp [untouched.cell, untouched.grips, Scope.fresh_eq, Gates.empty, Gates.depth] at *

theorem Accounts.mine (accounts : life.Accounts) {grip : Grip} {gate : GateRef} (member : grip ∈ life.grips me)
    (turn : grip.turn? = some gate) : life.cell.turns[gate]? = some (some me) := by
  have count := accounts.turns me gate
  have found : 0 < (life.grips me).countP (·.turn? = some gate) := List.countP_pos_iff.mpr ⟨grip, member, by simpa using turn⟩
  split at count
  · assumption
  · omega

theorem Accounts.build (accounts : before.Accounts) {effect : Effect C} {items : List (Item C)}
    (build : Build scope before.cell me was effect items now) (held : before.grips me = was ++ rest)
    (holds : after.grips me = now ++ rest) (cell : after.cell = effect.change me before.cell)
    (others : ∀ other, other ≠ me → after.grips other = before.grips other) : after.Accounts where
  shares thread := by
    rw [cell]
    by_cases mine : thread = me
    · subst mine
      rw [holds, List.length_append]
      exact build.shares (by rw [accounts.shares, held, List.length_append])
    · rw [others thread mine, build.others_shares mine, accounts.shares]
  turns thread gate := by
    rw [cell]
    by_cases mine : thread = me
    · subst mine
      rw [holds, List.countP_append]
      exact build.turns gate (by rw [← accounts.turns, held, List.countP_append])
    · rw [others thread mine, accounts.turns]
      have kept := build.others_turns mine gate fun grip member turn =>
        accounts.mine (held ▸ List.mem_append_left rest member) turn
      simp only [kept]
  gates thread grip member key gate same := by
    rw [cell]
    rcases come_or_kept held holds others member with ⟨rfl, new⟩ | ⟨old, _⟩
    · exact build.gates (fun grip member => accounts.gates thread grip (held ▸ List.mem_append_left rest member))
        grip new key gate same
    · exact build.gates_kept (accounts.gates thread grip old key gate same)
  depth thread := by
    rw [cell]
    by_cases mine : thread = me
    · subst mine
      rw [holds, List.countP_append]
      exact build.depth (by rw [accounts.depth, held, List.countP_append])
    · rw [others thread mine, build.others_depth mine, accounts.depth]
  positive := cell ▸ build.positive accounts.positive

-- While a scope is held exclusively nobody has a construction in flight.
theorem Accounts.alone (accounts : life.Accounts) (orderly : life.Orderly) (taken : life.cell.exclusive.isSome) :
    ∀ thread, life.grips thread = [] := by
  obtain ⟨owner, ended⟩ := orderly
  intro thread
  have count := accounts.shares thread
  rw [ended.unshared taken, List.count_nil] at count
  exact List.length_eq_zero_iff.mp count.symm

theorem Accounts.keep (accounts : before.Accounts) (grips : after.grips = before.grips)
    (sharing : after.cell.sharing = before.cell.sharing) (turns : after.cell.turns = before.cell.turns)
    (gates : after.cell.gates = before.cell.gates) : after.Accounts where
  shares := by rw [grips, sharing]; exact accounts.shares
  turns := by rw [grips, turns]; exact accounts.turns
  gates := by rw [grips, gates]; exact accounts.gates
  depth := by rw [grips, gates]; exact accounts.depth
  positive := gates ▸ accounts.positive

theorem Accounts.clear (accounts : before.Accounts) (alone : ∀ thread, before.grips thread = [])
    (grips : after.grips = before.grips) (sharing : after.cell.sharing = before.cell.sharing)
    (turns : after.cell.turns = before.cell.turns) (gates : after.cell.gates = .empty) : after.Accounts where
  shares := by rw [grips, sharing]; exact accounts.shares
  turns := by rw [grips, turns]; exact accounts.turns
  gates thread grip member := by simp [grips, alone] at member
  depth thread := by simp [grips, gates, alone, Gates.empty, Gates.depth]
  positive thread := by simp [gates, Gates.empty]

theorem preserves_accounts (accounts : before.Accounts) (orderly : before.Orderly)
    (step : Step shaken aided scope before after) : after.Accounts := by
  cases step with
  | idle cell grips ends stored calls =>
    obtain ⟨attributes, cell⟩ := cell
    exact accounts.keep grips (by rw [cell]) (by rw [cell]) (by rw [cell])
  | build me rest build cell held holds others ends stored calls => exact accounts.build build held holds cell others
  | close me rest close cell stood stands others grips stored calls =>
    cases close with
    | clear =>
      have taken := orderly.taken stood rfl
      refine accounts.clear (accounts.alone orderly (by rw [taken]; rfl)) grips ?_ ?_ ?_ <;> rw [cell] <;> rfl
    | _ => refine accounts.keep grips ?_ ?_ ?_ <;> rw [cell] <;> rfl

theorem Lived.accounts (lived : Lived shaken aided scope life) : life.Accounts := by
  induction lived with
  | untouched untouched => exact untouched.accounts
  | step lived next ih => exact preserves_accounts ih lived.orderly next

-- Two threads that go about the same key have the same gate, so only one of them has its turn.
theorem Accounts.one_holder (accounts : life.Accounts) {one two : ThreadId} {first second : Grip} {key : String}
    {gate other : GateRef} (mine : first ∈ life.grips one) (his : second ∈ life.grips two)
    (wants : first.gate? = some (key, gate)) (seeks : second.gate? = some (key, other))
    (turn : first.turn? = some gate) (next : second.turn? = some other) : one = two := by
  have same : gate = other :=
    Option.some.inj ((accounts.gates one first mine key gate wants).symm.trans (accounts.gates two second his key other seeks))
  subst same
  have held := (accounts.mine mine turn).symm.trans (accounts.mine his next)
  exact Option.some.inj (Option.some.inj held)

theorem Accounts.one_turn (accounts : life.Accounts) {first second : Grip} {key : String} {gate other : GateRef}
    (held : life.grips me = first :: rest) (again : second ∈ rest) (wants : first.gate? = some (key, gate))
    (seeks : second.gate? = some (key, other)) (turn : first.turn? = some gate) : second.turn? ≠ some other := by
  intro next
  have mine : first ∈ life.grips me := held ▸ List.mem_cons_self ..
  have his : second ∈ life.grips me := held ▸ List.mem_cons_of_mem _ again
  have same : gate = other :=
    Option.some.inj ((accounts.gates me first mine key gate wants).symm.trans (accounts.gates me second his key other seeks))
  subst same
  have count := accounts.turns me gate
  have found : 0 < rest.countP (·.turn? = some gate) := List.countP_pos_iff.mpr ⟨second, again, by simpa using next⟩
  rw [held, List.countP_cons_of_pos (by simpa using turn)] at count
  split at count <;> omega

end Life
end Lifespan
