import Lifespan.Proofs.Awaiting

-- A thread that is alone goes one way. Two runs from one state differ only in how much of a pause has passed,
-- and the first answer that a call gets is the same in all of them, in the same world.
namespace Lifespan
variable {C : Client}

def Thread.ripe (thread : Thread C) : Thread C :=
  match thread.focus with
  | .run (.pause _ next) => ⟨.run (.pause 0 next), thread.frames⟩
  | _ => thread

theorem ripe_cases (thread : Thread C) : thread.ripe = thread ∨
    ∃ left next frames, thread = ⟨.run (.pause left next), frames⟩ ∧ thread.ripe = ⟨.run (.pause 0 next), frames⟩ := by
  obtain ⟨focus, frames⟩ := thread
  unfold Thread.ripe
  split
  · rename_i left next same
    cases (show focus = _ from same)
    exact .inr ⟨left, next, frames, rfl, rfl⟩
  · exact .inl rfl

theorem ripe_waited (passed : Nat) (thread : Thread C) : (System.waited passed thread).ripe = thread.ripe := by
  rcases System.waited_cases passed thread with same | ⟨left, next, frames, rfl, same⟩
  · rw [same]
  · rw [same]
    rfl

theorem ripe_exit {thread : Thread C} {exit : Exit C} {frames : List (Frame C)} (answered : thread.ripe = ⟨exit.focus, frames⟩) :
    thread = ⟨exit.focus, frames⟩ := by
  rcases ripe_cases thread with same | ⟨left, next, below, rfl, same⟩
  · exact same.symm.trans answered
  · cases exit <;> cases same.symm.trans answered

namespace System
variable {start before after one two goal system : System C} {base : List (Frame C)}

def ripe (system : System C) : System C := { system with threads := system.threads.map Thread.ripe }

theorem ripe_answered (single : two.threads.length = 1) (same : one.ripe = two.ripe) (answered : two.Answered 0 base) : one = two := by
  obtain ⟨exit, running⟩ := answered
  obtain ⟨world, threads⟩ := two
  obtain ⟨thread, rfl⟩ := List.length_eq_one_iff.mp single
  cases Option.some.inj running
  obtain ⟨other, threads⟩ := one
  obtain ⟨rfl, alike⟩ := System.mk.inj same
  obtain ⟨thread, rfl, ripened⟩ := List.map_eq_singleton_iff.mp alike
  have settled : thread.ripe = ⟨exit.focus, base⟩ := by cases exit <;> exact ripened
  rw [ripe_exit settled]

-- A step lets time pass or goes the one way there is.
theorem step_ripe (single : before.threads.length = 1) (step : Step before after) :
    after.ripe = before.ripe ∨ (before.ripe.advance 0).map ripe = some after.ripe := by
  obtain ⟨world, threads⟩ := before
  obtain ⟨thread, rfl⟩ := List.length_eq_one_iff.mp single
  cases step with
  | time passed => exact .inl (by simp [ripe, elapse, ripe_waited])
  | thread me moved =>
    cases me with
    | succ me => cases moved
    | zero =>
      refine .inr ?_
      have still : System.ripe ⟨world, [thread]⟩ = ⟨world, [thread]⟩ := by
        rcases ripe_cases thread with same | ⟨left, next, frames, rfl, same⟩
        · simp [ripe, same]
        · have past : left = 0 := Decidable.byContradiction fun more => by
            simp [advance, Thread.next, Move.run, more] at moved
          simp [ripe, past, Thread.ripe]
      rw [still, moved]
      rfl

theorem answered_ripe : system.ripe.Answered 0 base ↔ system.Answered 0 base := by
  simp only [Answered, ripe, List.getElem?_map, Option.map_eq_some_iff]
  constructor
  · rintro ⟨exit, thread, running, same⟩
    exact ⟨exit, ripe_exit same ▸ running⟩
  · rintro ⟨exit, running⟩
    exact ⟨exit, _, running, by cases exit <;> rfl⟩

inductive Ahead (base : List (Frame C)) (goal : System C) : System C → Prop
  | arrived : Ahead base goal goal
  | step {here there : System C} (unanswered : ¬here.Answered 0 base) (goes : (here.advance 0).map ripe = some there)
      (onward : Ahead base goal there) : Ahead base goal here

theorem Ahead.more (ahead : Ahead base before start) (unanswered : ¬before.Answered 0 base)
    (next : after = before ∨ (before.advance 0).map ripe = some after) : Ahead base after start := by
  induction ahead with
  | arrived =>
    rcases next with rfl | goes
    · exact .arrived
    · exact .step unanswered goes .arrived
  | step open_ goes _ ih => exact .step open_ goes ih

theorem Ahead.on (ahead : Ahead base goal before) (unanswered : ¬before.Answered 0 base) (answered : goal.Answered 0 base)
    (next : after = before ∨ (before.advance 0).map ripe = some after) : Ahead base goal after := by
  cases ahead with
  | arrived => exact absurd answered unanswered
  | step _ goes onward =>
    rcases next with rfl | went
    · exact .step unanswered goes onward
    · cases goes.symm.trans went
      exact onward

theorem Ahead.reached (ahead : Ahead base goal system) (answered : system.Answered 0 base) : system = goal := by
  cases ahead with
  | arrived => rfl
  | step unanswered => exact absurd answered unanswered

section
variable (alone : ∀ reached, Awaits 0 base start reached → reached.threads.length = 1)
include alone

theorem awaits_ahead (waits : Awaits 0 base start system) : Ahead base system.ripe start.ripe := by
  induction waits with
  | refl => exact .arrived
  | step waits unanswered next ih =>
    exact ih.more (fun answered => unanswered (answered_ripe.mp answered)) (step_ripe (alone _ waits) next)

theorem awaits_on (ahead : Ahead base goal start.ripe) (answered : goal.Answered 0 base) (waits : Awaits 0 base start system) :
    Ahead base goal system.ripe := by
  induction waits with
  | refl => exact ahead
  | step waits unanswered next ih =>
    exact ih.on (fun answered => unanswered (answered_ripe.mp answered)) answered (step_ripe (alone _ waits) next)

theorem answered_once (first : Awaits 0 base start one) (answered : one.Answered 0 base) (second : Awaits 0 base start two)
    (again : two.Answered 0 base) : two = one := by
  have ahead := awaits_on alone (awaits_ahead alone first) (answered_ripe.mpr answered) second
  exact ripe_answered (alone _ first) (ahead.reached (answered_ripe.mpr again)) answered

end

def isSole (system : System C) : Bool :=
  match system.threads with
  | [thread] => !thread.focus.rests
  | _ => false

-- A fair run comes to its end with one thread all the way, and each of its states passes.
def watched (passes : System C → Bool) : Nat → System C → Bool
  | 0, _ => false
  | budget + 1, system => system.isSole && passes system &&
    match system.move? with
    | some next => watched passes budget next
    | none => true

theorem fair_step (sole : before.isSole = true) (step : Step before after) : after = before ∨ before.move? = some after := by
  obtain ⟨world, threads⟩ := before
  cases threads with
  | nil => cases sole
  | cons thread rest =>
    cases rest with
    | cons => cases sole
    | nil =>
      have busy : thread.focus.rests = false := by simpa [isSole] using sole
      cases step with
      | time passed =>
        rcases waited_cases passed thread with same | ⟨left, next, frames, rfl, _⟩
        · exact .inl (by simp [elapse, same])
        · cases busy
      | thread me moved =>
        cases me with
        | succ me => cases moved
        | zero => exact .inr (by simp [move?, moved])

theorem sole_single (sole : system.isSole = true) : system.threads.length = 1 := by
  unfold isSole at sole
  split at sole
  · rename_i only
    rw [only]
    rfl
  · cases sole

theorem watched_runs {passes : System C → Bool} (watches : watched passes budget start = true) (onward : Runs start system) :
    system.threads.length = 1 ∧ passes system = true := by
  suffices all : ∃ left, watched passes left system = true by
    obtain ⟨left, holds⟩ := all
    cases left with
    | zero => cases holds
    | succ =>
      simp only [watched, Bool.and_eq_true] at holds
      exact ⟨sole_single holds.1.1, holds.1.2⟩
  induction onward with
  | refl => exact ⟨budget, watches⟩
  | step _ next ih =>
    obtain ⟨left, holds⟩ := ih
    cases left with
    | zero => cases holds
    | succ left =>
      have sole : isSole _ = true := (Bool.and_eq_true_iff.mp (Bool.and_eq_true_iff.mp holds).1).1
      rcases fair_step sole next with rfl | moves
      · exact ⟨left + 1, holds⟩
      · refine ⟨left, ?_⟩
        simp only [watched, moves, Bool.and_eq_true] at holds
        exact holds.2

end System
end Lifespan
