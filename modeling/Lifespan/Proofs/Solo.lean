import Lifespan.Proofs.Awaiting

-- A stretch of a run in which only one thread goes on, without resting. Where a system has just this thread, such a
-- stretch is what every run of it goes through.
namespace Lifespan
variable {C : Client}

namespace System

inductive Stretch (me : ThreadId) (P : Thread C → Prop) : System C → System C → Prop
  | refl (system : System C) : Stretch me P system system
  | step {before middle after : System C} {thread : Thread C} (running : before.threads[me]? = some thread) (kind : P thread)
      (busy : thread.focus.rests = false) (moved : before.advance me = some middle) (onward : Stretch me P middle after) :
      Stretch me P before after

variable {before middle after later : System C} {me : ThreadId} {P : Thread C → Prop}

theorem Stretch.trans (first : Stretch me P before middle) (second : Stretch me P middle after) : Stretch me P before after := by
  induction first with
  | refl => exact second
  | step running kind busy moved _ ih => exact .step running kind busy moved (ih second)

theorem Stretch.runs (stretch : Stretch me P before after) : Runs before after := by
  induction stretch with
  | refl => exact .refl _
  | step _ _ _ moved _ ih => exact (Runs.step (.refl _) (.thread me moved)).trans ih

theorem Stretch.all_runs (stretch : Stretch me P before after) (single : before.threads.length = 1) (path : Runs before later) :
    (later.threads.length = 1 ∧ Stretch me P later after) ∨ Runs after later := by
  induction path with
  | refl => exact .inl ⟨single, stretch⟩
  | @step reached last path next ih =>
    rcases ih with ⟨alone, ahead⟩ | past
    · cases ahead with
      | refl => exact .inr (.step (.refl _) next)
      | @step _ middle _ thread running kind busy moved onward =>
        cases next with
        | time passed =>
          have still : reached.elapse passed = reached := by
            obtain ⟨world, threads⟩ := reached
            obtain ⟨only, rfl⟩ := List.length_eq_one_iff.mp alone
            have mine : only = thread := by
              cases me with
              | zero => exact Option.some.inj running
              | succ => cases running
            rcases waited_cases passed only with same | ⟨left, next, frames, rfl, _⟩
            · simp [elapse, same]
            · rw [← mine] at busy
              cases busy
          rw [still]
          exact .inl ⟨alone, .step running kind busy moved onward⟩
        | thread other goes =>
          have first : ∀ index, index < reached.threads.length → index = 0 := fun index inside =>
            Nat.lt_one_iff.mp (alone ▸ inside)
          have same : other = me := by
            obtain ⟨acting, found, _⟩ := advance_cases goes
            exact (first _ (List.getElem?_eq_some_iff.mp found).1).trans (first _ (List.getElem?_eq_some_iff.mp running).1).symm
          subst same
          cases moved.symm.trans goes
          obtain ⟨move, _, rfl⟩ := advance_turn running busy moved
          exact .inl ⟨by simpa [perform] using alone, onward⟩
    · exact .inr (.step past next)

end System
end Lifespan
