import Lifespan.Proofs.Solo

-- A thread on a way from which nothing can turn it: what it does next does not depend on anything that is shared.
-- It does the same whatever the others do meanwhile, and never has to wait.
namespace Lifespan
variable {C : Client}

def World.doneBy (world : World C) (me : ThreadId) : List (Item C) :=
  (world.history.reverse.filter fun one => one.1 == me).map Prod.snd

section
variable {world : World C} {me other : ThreadId} {items : List (Item C)} {effect : Effect C}

@[simp] theorem apply_doneBy : (effect.apply other world).doneBy me = world.doneBy me := by simp [World.doneBy]

@[simp] theorem record_doneBy :
    (System.record world other items).doneBy me = world.doneBy me ++ if other = me then items else [] := by
  have split : ((items.map (Prod.mk other)).filter fun one => one.1 == me).map Prod.snd = if other = me then items else [] := by
    by_cases same : other = me <;> simp [same, List.filter_map, Function.comp_def]
  rw [← split]
  simp [World.doneBy, System.record]

end

-- The thread is sure to make these moves up to its answer.
inductive Straight (me : ThreadId) (base : List (Frame C)) (answer : Exit C) : Thread C → List (Move C) → Prop
  | arrives : Straight me base answer ⟨answer.focus, base⟩ []
  | step {thread : Thread C} {move : Move C} (away : ∀ exit : Exit C, thread ≠ ⟨exit.focus, base⟩)
      (busy : thread.focus.rests = false) (sure : ∀ world, thread.next world me = some move)
      (onward : Straight me base answer ⟨move.focus, move.frames⟩ rest) : Straight me base answer thread (move :: rest)

def told (moves : List (Move C)) : List (Item C) := moves.flatMap Move.items

def World.moved (world : World C) (me : ThreadId) (moves : List (Move C)) : World C :=
  moves.foldl (fun world move => System.record (move.effect.apply me world) me move.items) world

namespace System
variable {start system before after : System C} {thread : Thread C} {me : ThreadId} {base : List (Frame C)} {answer : Exit C}
  {moves : List (Move C)}

theorem step_apart (next : Step before after) (running : before.threads[me]? = some thread) (busy : thread.focus.rests = false) :
    before.advance me = some after ∨
      after.threads[me]? = some thread ∧ after.world.doneBy me = before.world.doneBy me := by
  rcases step_busy next running busy with mine | still
  · exact .inl mine
  cases next with
  | time => exact .inr ⟨still, rfl⟩
  | thread other moved =>
    by_cases mine : other = me
    · exact .inl (mine ▸ moved)
    · refine .inr ⟨still, ?_⟩
      obtain ⟨_, _, ⟨move, _, rfl⟩ | ⟨_, _, _, _, _, _, rfl⟩ | ⟨_, _, _, _, _, rfl⟩⟩ := advance_cases moved
      · simp [perform, mine]
      · rfl
      · rfl

theorem straight_advances {move : Move C} (running : system.threads[me]? = some thread) (busy : thread.focus.rests = false)
    (sure : ∀ world, thread.next world me = some move) : system.advance me = some (system.perform me move) := by
  rw [advance_next running busy, sure]
  rfl

theorem awaits_straight (running : start.threads[me]? = some thread) (straight : Straight me base answer thread moves)
    (waits : Awaits me base start system) : ∃ thread done left, system.threads[me]? = some thread ∧
      Straight me base answer thread left ∧ moves = done ++ left ∧ system.world.doneBy me = start.world.doneBy me ++ told done := by
  induction waits with
  | refl => exact ⟨thread, [], moves, running, straight, rfl, (List.append_nil _).symm⟩
  | @step before after waits unanswered next ih =>
    obtain ⟨thread, done, left, running, straight, whole, history⟩ := ih
    cases straight with
    | arrives => exact absurd ⟨answer, running⟩ unanswered
    | @step rest _ move away busy sure onward =>
      rcases step_apart next running busy with mine | ⟨still, silent⟩
      · cases (straight_advances running busy sure).symm.trans mine
        refine ⟨_, done ++ [move], rest, List.getElem?_set_self (List.getElem?_eq_some_iff.mp running).1, onward, ?_, ?_⟩
        · rw [whole, List.append_assoc]
          rfl
        · simp [perform, history, told]
      · exact ⟨_, done, _, still, .step away busy sure onward, whole, silent.trans history⟩

theorem straight_answers {exit : Exit C} (running : start.threads[me]? = some thread) (straight : Straight me base answer thread moves)
    (waits : Awaits me base start system) (answered : system.threads[me]? = some ⟨exit.focus, base⟩) :
    exit = answer ∧ system.world.doneBy me = start.world.doneBy me ++ told moves := by
  obtain ⟨thread, done, left, running, straight, rfl, history⟩ := awaits_straight running straight waits
  cases running.symm.trans answered
  generalize there : Thread.mk exit.focus base = thread at straight
  cases straight with
  | arrives => exact ⟨exit_injective (congrArg Thread.focus there), by rw [history, List.append_nil]⟩
  | step away => exact absurd there.symm (away exit)

theorem straight_onward (running : start.threads[me]? = some thread) (straight : Straight me base answer thread moves)
    (waits : Awaits me base start system) (unanswered : ¬system.Answered me base) : ∃ after, system.advance me = some after := by
  obtain ⟨thread, done, left, running, straight, _, _⟩ := awaits_straight running straight waits
  cases straight with
  | arrives => exact absurd ⟨answer, running⟩ unanswered
  | step _ busy sure => exact ⟨_, straight_advances running busy sure⟩

theorem straight_stretch (running : start.threads[me]? = some thread) (straight : Straight me base answer thread moves) :
    ∃ last, Stretch me (fun _ => True) start last ∧ Awaits me base start last ∧
      last.threads[me]? = some ⟨answer.focus, base⟩ ∧ last.world = start.world.moved me moves := by
  induction straight generalizing start with
  | arrives => exact ⟨start, .refl _, .refl, running, rfl⟩
  | @step rest thread move away busy sure _ ih =>
    have moved := straight_advances running busy sure
    have placed : (start.perform me move).threads[me]? = some ⟨move.focus, move.frames⟩ :=
      List.getElem?_set_self (List.getElem?_eq_some_iff.mp running).1
    obtain ⟨last, stretch, waits, answered, world⟩ := ih placed
    refine ⟨last, .step running trivial busy moved stretch, (Awaits.step .refl ?_ (.thread me moved)).trans waits, answered, world⟩
    rintro ⟨exit, there⟩
    exact away exit (Option.some.inj (running.symm.trans there))

end System
end Lifespan
