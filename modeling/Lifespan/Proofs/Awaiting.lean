import Lifespan.Proofs.Life

-- A thread that has called and waits for its reply. What happens to it up to then is up to its own turns,
-- whatever the other threads do meanwhile.
namespace Lifespan
variable {C : Client}

-- User code that waits for time to pass or for other threads.
def Focus.rests : Focus C → Bool
  | .run (.fork _ _ _) | .run (.pause _ _) | .join _ _ => true
  | _ => false

theorem exit_injective {one two : Exit C} (same : one.focus = two.focus) : one = two := by
  cases one <;> cases two <;> cases same <;> rfl

theorem exit_busy (exit : Exit C) : exit.focus.rests = false := by cases exit <;> rfl

theorem over_exit {base : List (Frame C)} {frame : Frame C} (ordinary : frame.building? = none)
    (past : Thread.isOver ⟨focus, frame :: base⟩) : ∃ exit : Exit C, focus = exit.focus := by
  cases focus with
  | back reply => exact ⟨.back reply, rfl⟩
  | unwind panic => exact ⟨.unwind panic, rfl⟩
  | run code =>
    cases code with
    | built => cases frame <;> first | exact False.elim past | cases ordinary
    | _ => exact False.elim past
  | _ => exact False.elim past

theorem Turn.onto {world : World C} {move : Move C} {upper base : List (Frame C)} {frame : Frame C}
    (turn : Turn world me ⟨focus, upper ++ frame :: base⟩ move)
    (ordinary : frame.building? = none) :
    (∃ more, move.frames = more ++ frame :: base) ∨ upper = [] ∧ ∃ exit : Exit C, focus = exit.focus := by
  rcases turn.above with still | ⟨rfl, past⟩
  · exact .inl still
  · exact .inr ⟨rfl, over_exit ordinary past⟩

namespace System
def Answered (system : System C) (me : ThreadId) (frames : List (Frame C)) : Prop :=
  ∃ exit : Exit C, system.threads[me]? = some ⟨exit.focus, frames⟩

-- A run in which a thread has not gone on with these frames yet.
inductive Awaits (me : ThreadId) (frames : List (Frame C)) (start : System C) : System C → Prop
  | refl : Awaits me frames start start
  | step (waits : Awaits me frames start before) (unanswered : ¬before.Answered me frames) (next : Step before after) :
      Awaits me frames start after

variable {system start check before after : System C} {thread : Thread C} {me other : ThreadId} {base : List (Frame C)}

theorem Awaits.runs {frames : List (Frame C)} (waits : Awaits me frames start system) : Runs start system := by
  induction waits with
  | refl => exact .refl _
  | step _ _ next ih => exact .step ih next

theorem Awaits.trans (first : Awaits me base start check) (second : Awaits me base check system) :
    Awaits me base start system := by
  induction second with
  | refl => exact first
  | step _ unanswered next ih => exact .step ih unanswered next

theorem advance_next (running : system.threads[me]? = some thread) (busy : thread.focus.rests = false) :
    system.advance me = (thread.next system.world me).map (system.perform me) := by
  obtain ⟨focus, frames⟩ := thread
  simp only [advance, running, Option.bind_eq_bind, Option.bind_some]
  split
  · cases busy
  · cases busy
  · rfl

theorem advance_moves {thread : Thread C} (running : system.threads[me]? = some thread)
    (alone : ∀ count body next, thread.focus ≠ .run (.fork count body next)) (free : ∀ names next, thread.focus ≠ .join names next) :
    system.advance me = (thread.next system.world me).map (system.perform me) := by
  obtain ⟨focus, frames⟩ := thread
  cases focus with
  | run code =>
    cases code with
    | fork => exact absurd rfl (alone _ _ _)
    | _ => simp [advance, running]
  | join => exact absurd rfl (free _ _)
  | _ => simp [advance, running]

theorem advance_turn (running : before.threads[me]? = some thread) (busy : thread.focus.rests = false)
    (moved : before.advance me = some after) :
    ∃ move, Turn before.world me thread move ∧ after = before.perform me move := by
  obtain ⟨move, next, same⟩ := Option.map_eq_some_iff.mp ((advance_next running busy).symm.trans moved)
  exact ⟨move, next_turn next, same.symm⟩

theorem advance_other (moved : before.advance other = some after) (apart : other ≠ me)
    (running : before.threads[me]? = some thread) : after.threads[me]? = some thread := by
  have inside := (List.getElem?_eq_some_iff.mp running).1
  obtain ⟨acting, _, ⟨move, _, rfl⟩ | ⟨_, _, _, _, _, _, rfl⟩ | ⟨_, _, _, _, _, rfl⟩⟩ := advance_cases moved
  · exact (List.getElem?_set_ne apart).trans running
  · exact (List.getElem?_append_left (by simpa using inside)).trans ((List.getElem?_set_ne apart).trans running)
  · exact (List.getElem?_set_ne apart).trans running

theorem step_busy (next : Step before after) (running : before.threads[me]? = some thread)
    (busy : thread.focus.rests = false) : before.advance me = some after ∨ after.threads[me]? = some thread := by
  cases next with
  | thread other moved =>
    by_cases mine : other = me
    · exact .inl (mine ▸ moved)
    · exact .inr (advance_other moved mine running)
  | time passed =>
    have still : waited passed thread = thread := by
      rcases waited_cases passed thread with same | ⟨left, next, frames, rfl, _⟩
      · exact same
      · cases busy
    exact .inr (by simp [elapse, running, still])

theorem step_sole {world : World C} (next : Step ⟨world, [thread]⟩ after) (single : after.threads.length = 1) :
    (∃ move, Turn world 0 thread move ∧ after = perform ⟨world, [thread]⟩ 0 move) ∨ after = ⟨world, [thread]⟩ ∨
      ∃ focus other frames, thread = ⟨focus, frames⟩ ∧ focus.activity? = some .code ∧ other.activity? = some .code ∧
        after = ⟨world, [⟨other, frames⟩]⟩ := by
  cases step_change next with
  | @turn me _ move running turn =>
    cases me with
    | succ => cases running
    | zero =>
      cases running
      exact .inl ⟨move, turn, rfl⟩
  | @fork me _ _ _ count body running =>
    cases me with
    | succ => cases running
    | zero =>
      cases running
      cases count with
      | zero => exact .inr (.inr ⟨_, _, _, rfl, rfl, rfl, rfl⟩)
      | succ => simp at single
  | @join me _ _ _ _ running =>
    cases me with
    | succ => cases running
    | zero =>
      cases running
      exact .inr (.inr ⟨_, _, _, rfl, rfl, rfl, rfl⟩)
  | @time passed =>
    rcases waited_cases passed thread with same | ⟨left, onward, frames, rfl, same⟩
    · exact .inr (.inl (by simp [elapse, same]))
    · exact .inr (.inr ⟨_, .run (.pause (left - passed) onward), frames, rfl, rfl, rfl, by simp [elapse, same]⟩)

-- What one thread keeps by its own turns, whatever user code it runs, it keeps whatever the others do.
theorem Change.alone {P : World C → Thread C → Prop} (change : Change before after)
    (running : before.threads[me]? = some thread) (valid : P before.world thread)
    (grows : P before.world thread → P after.world thread)
    (refocus : ∀ focus other frames, thread = ⟨focus, frames⟩ → focus.rests = true → other.activity? = some .code →
      P after.world ⟨other, frames⟩)
    (turns : ∀ move, Turn before.world me thread move → after = before.perform me move →
      P after.world ⟨move.focus, move.frames⟩) :
    ∃ thread, after.threads[me]? = some thread ∧ P after.world thread := by
  have inside := (List.getElem?_eq_some_iff.mp running).1
  have old : after.threads[me]? = some thread → ∃ thread, after.threads[me]? = some thread ∧ P after.world thread :=
    fun still => ⟨thread, still, grows valid⟩
  cases change with
  | @turn other _ _ found turn =>
    by_cases mine : other = me
    · subst mine
      cases running.symm.trans found
      exact ⟨_, List.getElem?_set_self inside, turns _ turn rfl⟩
    · exact old ((List.getElem?_set_ne mine).trans running)
  | @fork other _ _ _ _ _ found =>
    by_cases mine : other = me
    · subst mine
      cases running.symm.trans found
      exact ⟨_, (List.getElem?_append_left (by simpa using inside)).trans (List.getElem?_set_self inside),
        refocus _ _ _ rfl rfl rfl⟩
    · exact old ((List.getElem?_append_left (by simpa using inside)).trans ((List.getElem?_set_ne mine).trans running))
  | @join other _ _ _ _ found =>
    by_cases mine : other = me
    · subst mine
      cases running.symm.trans found
      exact ⟨_, List.getElem?_set_self inside, refocus _ _ _ rfl rfl rfl⟩
    · exact old ((List.getElem?_set_ne mine).trans running)
  | @time passed =>
    refine ⟨waited passed thread, by simp [elapse, running], ?_⟩
    rcases waited_cases passed thread with same | ⟨left, next, frames, rfl, same⟩
    · rw [same]
      exact grows valid
    · rw [same]
      exact refocus _ _ _ rfl rfl rfl

theorem awaits_keep {P : World C → Thread C → Prop} (running : start.threads[me]? = some thread) (holds : P start.world thread)
    (grows : ∀ before after thread, Awaits me base start before → Step before after →
      P before.world thread → P after.world thread)
    (refocus : ∀ world focus other frames, focus.rests = true → P world ⟨focus, frames⟩ → P world ⟨other, frames⟩)
    (turns : ∀ before thread move, Awaits me base start before → Turn before.world me thread move →
      Step before (before.perform me move) → P before.world thread → (∀ exit : Exit C, thread ≠ ⟨exit.focus, base⟩) →
      P (before.perform me move).world ⟨move.focus, move.frames⟩)
    (waits : Awaits me base start system) : ∃ thread, system.threads[me]? = some thread ∧ P system.world thread := by
  induction waits with
  | refl => exact ⟨thread, running, holds⟩
  | @step before after waits unanswered next ih =>
    obtain ⟨thread, running, holds⟩ := ih
    refine (step_change next).alone running holds (grows before after thread waits next) ?_ ?_
    · rintro focus other frames rfl rests _
      exact refocus _ focus other frames rests (grows before after _ waits next holds)
    · rintro move turn rfl
      exact turns before thread move waits turn next holds fun exit same => unanswered ⟨exit, same ▸ running⟩

theorem awaits_sole {P : World C → Thread C → Prop} (alone : ∀ reached, Awaits 0 base start reached → reached.threads.length = 1)
    (running : start.threads = [thread]) (holds : P start.world thread)
    (refocus : ∀ world focus other frames, focus.activity? = some .code → other.activity? = some .code →
      P world ⟨focus, frames⟩ → P world ⟨other, frames⟩)
    (turns : ∀ world thread move, Awaits 0 base start ⟨world, [thread]⟩ → Turn world 0 thread move → P world thread →
      (∀ exit : Exit C, thread ≠ ⟨exit.focus, base⟩) →
      P (record (move.effect.apply 0 world) 0 move.items) ⟨move.focus, move.frames⟩)
    (waits : Awaits 0 base start system) : ∃ thread, system.threads = [thread] ∧ P system.world thread := by
  induction waits with
  | refl => exact ⟨thread, running, holds⟩
  | @step before after waits unanswered next ih =>
    obtain ⟨thread, only, holds⟩ := ih
    obtain ⟨world, threads⟩ := before
    cases (show threads = [thread] from only)
    rcases step_sole next (alone _ (waits.step unanswered next)) with ⟨move, turn, rfl⟩ | rfl | ⟨_, _, _, rfl, was, now, rfl⟩
    · exact ⟨_, rfl, turns world thread move waits turn holds fun exit same => unanswered ⟨exit, congrArg some same⟩⟩
    · exact ⟨_, rfl, holds⟩
    · exact ⟨_, rfl, refocus _ _ _ _ was now holds⟩

theorem runs_awaits (onward : Runs start system) (me : ThreadId) (frames : List (Frame C)) : Awaits me frames start system ∨
    ∃ answered, Awaits me frames start answered ∧ answered.Answered me frames ∧ Runs answered system := by
  induction onward with
  | refl => exact .inl .refl
  | @step middle _ _ next ih =>
    rcases ih with waits | ⟨answered, waits, answers, later⟩
    · by_cases answers : middle.Answered me frames
      · exact .inr ⟨middle, waits, answers, .step (.refl _) next⟩
      · exact .inl (.step waits answers next)
    · exact .inr ⟨answered, waits, answers, .step later next⟩

-- An activity that each of its own steps brings closer to its answer, with nothing else done, is always
-- ready for the next one, and never further from the answer than before.
theorem awaits_countdown {P : World C → Nat → Thread C → Prop} {R : List (Item C) → Prop} {left : Nat}
    (running : start.threads[me]? = some thread) (holds : P start.world left thread)
    (busy : ∀ world left thread, P world left thread → thread.focus.rests = false)
    (last : ∀ world thread, P world 0 thread → ∃ exit : Exit C, thread = ⟨exit.focus, base⟩)
    (grows : ∀ before after left thread, Awaits me base start before → Step before after →
      P before.world left thread → P after.world left thread)
    (moves : ∀ before left thread, Awaits me base start before → before.threads[me]? = some thread →
      P before.world (left + 1) thread → ∃ move, thread.next before.world me = some move)
    (turns : ∀ before left thread move, Awaits me base start before → before.threads[me]? = some thread →
      P before.world (left + 1) thread → Turn before.world me thread move →
      move.effect = .still ∧ R move.items ∧ ∃ fewer, fewer ≤ left ∧ P (before.perform me move).world fewer ⟨move.focus, move.frames⟩)
    (waits : Awaits me base start system) : ∃ left thread, system.threads[me]? = some thread ∧ P system.world left thread ∧
      (left = 0 ∨ ∃ after items other, system.advance me = some after ∧ after.world = record system.world me items ∧
        R items ∧ after.threads[me]? = some other ∧ ∃ fewer, fewer < left ∧ P after.world fewer other) := by
  obtain ⟨thread, running, left, holds⟩ : ∃ thread, system.threads[me]? = some thread ∧ ∃ left, P system.world left thread := by
    induction waits with
    | refl => exact ⟨thread, running, left, holds⟩
    | @step before after waits unanswered next ih =>
      obtain ⟨thread, running, left, holds⟩ := ih
      refine (step_change next).alone (P := fun world thread => ∃ left, P world left thread) running ⟨left, holds⟩ ?_ ?_ ?_
      · rintro ⟨left, holds⟩
        exact ⟨left, grows before after left thread waits next holds⟩
      · rintro focus other frames rfl rests _
        cases (busy _ _ _ holds).symm.trans rests
      · rintro move turn rfl
        cases left with
        | zero =>
          obtain ⟨exit, rfl⟩ := last _ _ holds
          exact absurd ⟨exit, running⟩ unanswered
        | succ left =>
          obtain ⟨_, _, fewer, _, later⟩ := turns before left thread move waits running holds turn
          exact ⟨fewer, later⟩
  refine ⟨left, thread, running, holds, ?_⟩
  cases left with
  | zero => exact .inl rfl
  | succ left =>
    obtain ⟨move, moves⟩ := moves _ left thread waits running holds
    obtain ⟨still, silent, fewer, less, later⟩ := turns _ left thread move waits running holds (next_turn moves)
    have moved : system.advance me = some (system.perform me move) := by
      rw [advance_next running (busy _ _ _ holds), moves]
      rfl
    refine .inr ⟨_, move.items, _, moved, ?_, silent, ?_, fewer, Nat.lt_succ_of_le less, later⟩
    · rw [perform, still]
      rfl
    · exact List.getElem?_set_self (List.getElem?_eq_some_iff.mp running).1

theorem awaits_carry {P : World C → Thread C → Prop} {asked : Code C} {frames : List (Frame C)} (asks : asked.asks = true)
    (calls : start.threads[me]? = some ⟨.run asked, frames⟩)
    (begins : ∀ world later move, Turn world me ⟨.run asked, frames⟩ move → P later ⟨move.focus, move.frames⟩)
    (goesOn : ∀ before after thread, Runs start before → Change before after → before.threads[me]? = some thread →
      P before.world thread → ¬before.Answered me base →
      ∃ thread, after.threads[me]? = some thread ∧ P after.world thread)
    (waits : Awaits me base start system) :
    ∃ thread, system.threads[me]? = some thread ∧ (thread = ⟨.run asked, frames⟩ ∨ P system.world thread) := by
  induction waits with
  | refl => exact ⟨_, calls, .inl rfl⟩
  | step waits unanswered step ih =>
    have change := step_change step
    obtain ⟨thread, running, rfl | valid⟩ := ih
    · refine change.alone (P := fun world thread => thread = ⟨.run asked, frames⟩ ∨ P world thread) running (.inl rfl)
        (fun _ => .inl rfl) ?_ ?_
      · rintro focus other below same rests _
        cases same
        cases asked <;> first | cases asks; done | cases rests
      · exact fun move turn _ => .inr (begins _ _ move turn)
    · obtain ⟨later, runs, still⟩ := goesOn _ _ thread waits.runs change running valid unanswered
      exact ⟨later, runs, .inr still⟩

-- In a fair run a thread has not come back to these frames while it stands at another height or is busy.
theorem awaits_run (budget height : Nat) (tall : base.length = height)
    (away : ∀ n < budget, ((run n start).threads[me]?).all (fun thread =>
      thread.frames.length != height || thread.focus.activity?.isSome) = true) :
    Awaits me base start (run budget start) := by
  induction budget generalizing start with
  | zero => exact .refl
  | succ budget ih =>
    cases moved : start.move? with
    | none =>
      rw [run, moved]
      exact .refl
    | some next =>
      have onward : ∀ n, run (n + 1) start = run n next := fun n => by rw [run, moved]
      rw [onward]
      refine (Awaits.step .refl ?_ (move?_step moved)).trans (ih fun n less => onward n ▸ away (n + 1) (Nat.succ_lt_succ less))
      rintro ⟨exit, running⟩
      have first := away 0 (Nat.succ_pos _)
      cases exit <;> simp [run, running, tall, Exit.focus, Focus.activity?] at first

end System
end Lifespan
