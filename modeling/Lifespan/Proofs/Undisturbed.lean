import Lifespan.Proofs.Certain
import Lifespan.Proofs.Foreign
import Lifespan.Proofs.Telling

-- A call that is let alone. While a single thread waits for its reply, the hooks and listeners that are called on
-- the way have nothing to do with the registry that the call is about, so each that comes back leaves it as it
-- was. A call that comes back has seen them all come back.
namespace Lifespan
variable {C : Client} {registry : RegistryRef}

def Frame.attends (registry : RegistryRef) : Frame C → Bool
  | .hooked teardown _ => teardown.scope.registry == registry
  | .delivering place _ => place == registry
  | _ => false

theorem attends_plain {frame : Frame C} (attends : frame.attends registry = true) : frame.building? = none := by
  cases frame <;> first | rfl | cases attends

namespace System
variable {start system before after : System C} {base below : List (Frame C)} {frame : Frame C} {focus : Focus C} {code : Code C}
  {world : World C} {program : C.Label → Code C} {memory : C.Memory} {origin : Code C}

structure Undisturbed (registry : RegistryRef) (base : List (Frame C)) (start : System C) : Prop where
  -- one thread runs, and no listener panics
  alone : ∀ reached, Awaits 0 base start reached → reached.threads.length = 1
  calm : ∀ reached, Awaits 0 base start reached → ¬reached.world.shaken
  unused : ∀ reached code frames, Awaits 0 base start reached → reached.threads = [⟨.run code, frames⟩] → base <:+ frames →
    code.uses registry = false

def Returning (registry : RegistryRef) (base : List (Frame C)) (start : System C) : Prop :=
  ∀ reached code frame below, Awaits 0 base start reached → reached.threads = [⟨.run code, frame :: below⟩] →
    base <:+ below → frame.attends registry = true →
      ∃ back, Awaits 0 (frame :: below) reached back ∧ back.Answered 0 (frame :: below)

theorem Awaits.goes {frames : List (Frame C)} {move : Move C} (waits : Awaits 0 base start ⟨world, [⟨focus, frames⟩]⟩)
    (moves : Thread.next world 0 ⟨focus, frames⟩ = some move) (busy : focus.rests = false)
    (unanswered : ∀ exit : Exit C, Thread.mk focus frames ≠ ⟨exit.focus, base⟩) :
    Awaits 0 base start ⟨record (move.effect.apply 0 world) 0 move.items, [⟨move.focus, move.frames⟩]⟩ := by
  refine waits.step ?_ (.thread 0 ?_)
  · rintro ⟨exit, answered⟩
    exact unanswered exit (Option.some.inj answered)
  · rw [advance_next rfl busy, moves]
    rfl

theorem Awaits.onward {move : Move C} (waits : Awaits 0 base start ⟨world, [⟨focus, frame :: below⟩]⟩) (suffix : base <:+ below)
    (moves : Thread.next world 0 ⟨focus, frame :: below⟩ = some move) (busy : focus.rests = false) :
    Awaits 0 base start ⟨record (move.effect.apply 0 world) 0 move.items, [⟨move.focus, move.frames⟩]⟩ :=
  waits.goes moves busy fun _ same => suffix_ne suffix (congrArg Thread.frames same)

theorem Awaits.silently {next : Focus C} {frames : List (Frame C)} (waits : Awaits 0 base start ⟨world, [⟨focus, frame :: below⟩]⟩)
    (suffix : base <:+ below) (moves : Thread.next world 0 ⟨focus, frame :: below⟩ = some (.silent next frames))
    (busy : focus.rests = false) : Awaits 0 base start ⟨world, [⟨next, frames⟩]⟩ := waits.onward suffix moves busy

theorem above_unanswered {upper : List (Frame C)} (only : system.threads = [⟨focus, upper ++ frame :: below⟩]) (suffix : base <:+ below) :
    ¬system.Answered 0 base := by
  rintro ⟨exit, answered⟩
  rw [only] at answered
  have same := congrArg List.length (congrArg Thread.frames (Option.some.inj answered))
  have shorter := suffix.length_le
  simp at same
  omega

-- What is above a frame above the base, comes back to that frame before it comes back to the base.
theorem awaits_within (alone : ∀ reached, Awaits 0 base start reached → reached.threads.length = 1)
    (waits : Awaits 0 base start before) (running : before.threads = [⟨focus, frame :: below⟩]) (suffix : base <:+ below)
    (plain : frame.building? = none) (inner : Awaits 0 (frame :: below) before after) :
    Awaits 0 base start after ∧ ∃ focus upper, after.threads = [⟨focus, upper ++ frame :: below⟩] := by
  induction inner with
  | refl => exact ⟨waits, focus, [], running⟩
  | @step middle after inner unanswered next ih =>
    obtain ⟨reached, focus, upper, only⟩ := ih
    have far : base <:+ upper ++ below := suffix.trans (List.suffix_append _ _)
    have later := reached.step (above_unanswered only suffix) next
    refine ⟨later, ?_⟩
    obtain ⟨world, threads⟩ := middle
    cases (show threads = _ from only)
    rcases step_sole next (alone _ later) with ⟨move, turn, rfl⟩ | rfl | ⟨_, _, _, same, _, _, rfl⟩
    · rcases turn.onto plain with ⟨more, same⟩ | ⟨rfl, exit, rfl⟩
      · exact ⟨move.focus, more, by simp [perform, same]⟩
      · exact absurd ⟨exit, rfl⟩ unanswered
    · exact ⟨focus, upper, rfl⟩
    · cases same
      exact ⟨_, upper, rfl⟩

theorem ripe_step (single : before.threads.length = 1) : Step before before.ripe := by
  obtain ⟨world, threads⟩ := before
  obtain ⟨thread, rfl⟩ := List.length_eq_one_iff.mp single
  rcases ripe_cases thread with same | ⟨left, next, frames, rfl, _⟩
  · have still : System.ripe ⟨world, [thread]⟩ = System.elapse ⟨world, [thread]⟩ 0 := by
      have waits : waited 0 thread = thread := by rcases waited_cases 0 thread with now | ⟨left, next, frames, rfl, now⟩ <;> exact now
      simp [ripe, elapse, same, waits]
    rw [still]
    exact .time 0
  · have past : System.ripe ⟨world, [⟨.run (.pause left next), frames⟩]⟩ =
        System.elapse ⟨world, [⟨.run (.pause left next), frames⟩]⟩ left := by simp [ripe, elapse, waited, Thread.ripe]
    rw [past]
    exact .time left

theorem Ahead.returns {here goal : System C} (alone : ∀ reached, Awaits 0 base start reached → reached.threads.length = 1)
    (waits : Awaits 0 base start before) (running : before.threads = [⟨focus, frame :: below⟩]) (suffix : base <:+ below)
    (plain : frame.building? = none) (answered : goal.Answered 0 base) (ahead : Ahead base goal here.ripe)
    (inner : Awaits 0 (frame :: below) before here) : ∃ back, Awaits 0 (frame :: below) before back ∧ back.Answered 0 (frame :: below) := by
  generalize same : here.ripe = ripened at ahead
  induction ahead generalizing here with
  | arrived =>
    subst same
    obtain ⟨_, focus, upper, only⟩ := awaits_within alone waits running suffix plain inner
    exact absurd (answered_ripe.mp answered) (above_unanswered only suffix)
  | @step _ there _ goes _ ih =>
    subst same
    by_cases back : here.Answered 0 (frame :: below)
    · exact ⟨here, inner, back⟩
    · obtain ⟨after, moved, same⟩ := Option.map_eq_some_iff.mp goes
      have single := alone _ (awaits_within alone waits running suffix plain inner).1
      have rested := inner.step back (ripe_step single)
      exact ih (rested.step (fun now => back (answered_ripe.mp now)) (.thread 0 moved)) same

theorem answered_returning {later : System C} (alone : ∀ reached, Awaits 0 base start reached → reached.threads.length = 1)
    (waits : Awaits 0 base start later) (answered : later.Answered 0 base) : Returning registry base start := by
  intro reached code frame below comes running suffix attends
  have ahead := awaits_on alone (awaits_ahead alone waits) (answered_ripe.mpr answered) comes
  exact ahead.returns alone comes running suffix (attends_plain attends) (answered_ripe.mpr answered) .refl

theorem runs_registries (onward : Runs before after) : before.world.registries.length ≤ after.world.registries.length := by
  induction onward with
  | refl => exact Nat.le_refl _
  | step _ next ih =>
    refine Nat.le_trans ih ?_
    cases step_change next with
    | turn => exact registries_grow _ _
    | _ => exact Nat.le_refl _

theorem awaits_known (known : registry < start.world.registries.length) (waits : Awaits 0 base start system) :
    registry < system.world.registries.length := Nat.lt_of_lt_of_le known (runs_registries waits.runs)

section
variable (path : Runs (initial program memory origin) start) (quiet : Undisturbed registry base start)
  (returning : Returning registry base start)
include path quiet returning

theorem awaits_attended (waits : Awaits 0 base start ⟨world, [⟨.run code, frame :: below⟩]⟩) (suffix : base <:+ below)
    (attends : frame.attends registry = true) : ∃ later, ∃ exit : Exit C,
      Awaits 0 base start ⟨later, [⟨exit.focus, frame :: below⟩]⟩ ∧
      Awaits 0 (frame :: below) ⟨world, [⟨.run code, frame :: below⟩]⟩ ⟨later, [⟨exit.focus, frame :: below⟩]⟩ ∧
      Spares registry [] [] world later := by
  have plain := attends_plain attends
  have within (reached : System C) (inner : Awaits 0 (frame :: below) ⟨world, [⟨.run code, frame :: below⟩]⟩ reached) :=
    awaits_within quiet.alone waits rfl suffix plain inner
  obtain ⟨⟨later, threads⟩, inner, exit, answered⟩ := returning _ code frame below waits rfl suffix attends
  have unused (reached : System C) (other : Code C) (upper : List (Frame C)) (inner : Awaits 0 (frame :: below) _ reached)
      (running : reached.threads = [⟨.run other, upper ++ frame :: below⟩]) : other.uses registry = false :=
    quiet.unused _ other _ (within reached inner).1 running ((suffix.trans (List.suffix_cons _ _)).trans (List.suffix_append _ _))
  obtain ⟨thread, only, _, spares⟩ := awaits_foreign (path.trans waits.runs) plain
    (fun reached inner => quiet.alone _ (within reached inner).1) unused rfl inner
  cases (show threads = [thread] from only)
  cases Option.some.inj answered
  exact ⟨later, exit, (within _ inner).1, inner, spares⟩

end

end System
end Lifespan
