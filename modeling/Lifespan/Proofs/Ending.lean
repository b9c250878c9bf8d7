import Lifespan.Proofs.Life

-- The ending of a scope: one thread carries it out, and nobody else has a construction in flight
-- while it is at it.
namespace Lifespan
variable {C : Client}

namespace Stage

def isExclusive : Stage → Bool
  | waiting | answered => false
  | _ => true

-- The state that the scope is in. A panic may come out of the teardown or out of the telling.
def state? : Stage → Option State
  | waiting | alone | emptied _ | tearing _ | torn | cut | settled => some .destructionPending
  | told | leaving true | answered => some .destroyed
  | leaving false => none

def isEarly : Stage → Bool
  | waiting | alone => true
  | _ => false

end Stage

section
variable {cell : Scope C} {effect : Effect C} {items : List (Item C)} {held holds : List Grip} {was now : List Stage}
  {me : ThreadId} {shaken aided : Prop} {scope : ScopeRef}

theorem Build.cell_ending (build : Build scope cell me held effect items holds) :
    (effect.change me cell).state = cell.state ∧ (effect.change me cell).exclusive = cell.exclusive ∧
      (cell.exclusive.isSome → cell.sharing = [] → (effect.change me cell).sharing = []) := by
  cases build with
  | share free => exact ⟨rfl, rfl, fun taken => by simp [free] at taken⟩
  | unshare => exact ⟨rfl, rfl, fun _ none => by simp [Effect.change, none]⟩
  | _ => exact ⟨rfl, rfl, fun _ none => none⟩

theorem Close.exclusive (close : Close shaken scope cell was effect items now)
    (held : cell.exclusive = if was.any Stage.isExclusive then some me else none) :
    (effect.change me cell).exclusive = if now.any Stage.isExclusive then some me else none := by
  cases close with
  | exclude | reopen | abandon => rfl
  | flee panicked ending => rcases ending with rfl | rfl <;> exact held
  | _ => exact held

theorem Close.unshared (close : Close shaken scope cell was effect items now)
    (alone : cell.exclusive.isSome → cell.sharing = []) (taken : (effect.change me cell).exclusive.isSome) :
    (effect.change me cell).sharing = [] := by
  cases close with
  | exclude unshared => exact unshared
  | reopen | abandon => cases taken
  | _ => exact alone taken

theorem Close.inactive (close : Close shaken scope cell was effect items now) (quiet : cell.state = .active → was = []) :
    (effect.change me cell).state ≠ .active := by
  cases close with
  | retire | mark => exact nofun
  | _ => exact fun active => nomatch quiet active

theorem Close.states (close : Close shaken scope cell was effect items now)
    (told : ∀ stage ∈ was, ∀ state, stage.state? = some state → cell.state = state) :
    ∀ stage ∈ now, ∀ state, stage.state? = some state → (effect.change me cell).state = state := by
  intro stage member state same
  cases close with
  | retire | mark => cases List.mem_singleton.mp member; cases same; rfl
  | abandon | forget => cases member
  | flee => cases List.mem_singleton.mp member; cases same
  | _ =>
    cases List.mem_singleton.mp member
    cases same
    exact told _ (List.mem_singleton.mpr rfl) _ rfl

theorem Close.begun (close : Close shaken scope cell was effect items now) (begun : cell.state ≠ .created) :
    (effect.change me cell).state ≠ .created := by
  cases close with
  | retire | mark => exact nofun
  | _ => exact begun

theorem Close.single (close : Close shaken scope cell was effect items now) : now.length ≤ 1 := by
  cases close <;> simp

end

namespace Life
variable {life before after : Life C} {owner me : ThreadId} {shaken aided : Prop} {scope : ScopeRef}

structure EndedBy (life : Life C) (owner : ThreadId) : Prop where
  others : ∀ other, other ≠ owner → life.ends other = []
  single : (life.ends owner).length ≤ 1
  exclusive : life.cell.exclusive = if (life.ends owner).any Stage.isExclusive then some owner else none
  unshared : life.cell.exclusive.isSome → life.cell.sharing = []
  silent : life.cell.state = .active → life.ends owner = []
  states : ∀ stage ∈ life.ends owner, ∀ state, stage.state? = some state → life.cell.state = state
  begun : life.cell.state ≠ .created

def Orderly (life : Life C) : Prop := ∃ owner, life.EndedBy owner

theorem Untouched.orderly (untouched : life.Untouched) : life.Orderly := by
  refine ⟨0, fun other _ => untouched.ends other, ?_, ?_, ?_, fun _ => untouched.ends 0, ?_, ?_⟩
  all_goals simp [untouched.cell, untouched.ends, Scope.fresh_eq]

-- Whoever goes on with the ending of a scope is the one that ends it.
theorem Orderly.owned {stage : Stage} (orderly : life.Orderly) (stood : life.ends me = stage :: rest) :
    life.EndedBy me ∧ rest = [] := by
  obtain ⟨owner, ended⟩ := orderly
  by_cases mine : me = owner
  · subst mine
    have single := ended.single
    rw [stood, List.length_cons] at single
    exact ⟨ended, List.length_eq_zero_iff.mp (by omega)⟩
  · have none := ended.others me mine
    rw [stood] at none
    cases none

theorem Orderly.only {stage : Stage} (orderly : life.Orderly) (member : stage ∈ life.ends me) : life.ends me = [stage] := by
  cases stood : life.ends me with
  | nil => rw [stood] at member; cases member
  | cons first rest =>
    obtain ⟨_, rfl⟩ := orderly.owned stood
    rw [stood] at member
    cases List.mem_singleton.mp member
    rfl

theorem Orderly.taken {stage : Stage} (orderly : life.Orderly) (stood : life.ends me = stage :: rest)
    (exclusive : stage.isExclusive = true) : life.cell.exclusive = some me := by
  have ended := (orderly.owned stood).1.exclusive
  simpa [stood, exclusive] using ended

theorem Orderly.quiet (orderly : life.Orderly) (active : life.cell.state = .active) : ∀ thread, life.ends thread = [] := by
  obtain ⟨owner, ended⟩ := orderly
  intro thread
  by_cases his : thread = owner
  · exact his ▸ ended.silent active
  · exact ended.others thread his

theorem Orderly.anyone (orderly : life.Orderly) (active : life.cell.state = .active) : life.EndedBy me := by
  have quiet := orderly.quiet active
  obtain ⟨owner, ended⟩ := orderly
  refine ⟨fun other _ => quiet other, by simp [quiet], ?_, ended.unshared, fun _ => quiet me, by simp [quiet], ended.begun⟩
  simpa [quiet] using ended.exclusive

theorem Orderly.solo {effect : Effect C} {items : List (Item C)} (orderly : before.Orderly)
    (close : Close shaken scope before.cell was effect items now) (stood : before.ends me = was ++ rest) :
    before.EndedBy me ∧ rest = [] := by
  cases close with
  | retire active => exact ⟨orderly.anyone active, stood.symm.trans (orderly.quiet active me)⟩
  | _ => exact orderly.owned stood

theorem EndedBy.keep (ended : before.EndedBy owner) (ends : after.ends = before.ends)
    (state : after.cell.state = before.cell.state) (exclusive : after.cell.exclusive = before.cell.exclusive)
    (unshared : before.cell.exclusive.isSome → before.cell.sharing = [] → after.cell.sharing = []) :
    after.EndedBy owner where
  others := ends ▸ ended.others
  single := ends ▸ ended.single
  exclusive := by rw [ends, exclusive]; exact ended.exclusive
  unshared taken := by rw [exclusive] at taken; exact unshared taken (ended.unshared taken)
  silent active := by rw [ends]; exact ended.silent (state ▸ active)
  states := by rw [ends, state]; exact ended.states
  begun := by rw [state]; exact ended.begun

theorem EndedBy.close {effect : Effect C} {items : List (Item C)} (ended : before.EndedBy me)
    (close : Close shaken scope before.cell was effect items now)
    (stood : before.ends me = was) (stands : after.ends me = now) (cell : after.cell = effect.change me before.cell)
    (others : ∀ other, other ≠ me → after.ends other = before.ends other) : after.EndedBy me where
  others other apart := (others other apart).trans (ended.others other apart)
  single := by rw [stands]; exact close.single
  exclusive := by rw [cell, stands]; exact close.exclusive (stood ▸ ended.exclusive)
  unshared := by rw [cell]; exact close.unshared ended.unshared
  silent active := absurd (cell ▸ active) (close.inactive (stood ▸ ended.silent))
  states := by rw [cell, stands]; exact close.states (stood ▸ ended.states)
  begun := by rw [cell]; exact close.begun ended.begun

theorem preserves_orderly (orderly : before.Orderly) (step : Step shaken aided scope before after) : after.Orderly := by
  cases step with
  | idle cell grips ends stored calls =>
    obtain ⟨owner, ended⟩ := orderly
    obtain ⟨attributes, cell⟩ := cell
    exact ⟨owner, ended.keep ends (by rw [cell]) (by rw [cell]) fun _ none => by rw [cell]; exact none⟩
  | build me rest build cell held holds others ends stored calls =>
    obtain ⟨owner, ended⟩ := orderly
    obtain ⟨state, exclusive, unshared⟩ := build.cell_ending
    exact ⟨owner, ended.keep ends (cell ▸ state) (cell ▸ exclusive) (cell ▸ unshared)⟩
  | close me rest close cell stood stands others grips stored calls =>
    obtain ⟨mine, rfl⟩ := orderly.solo close stood
    rw [List.append_nil] at stood stands
    exact ⟨_, mine.close close stood stands cell others⟩

theorem Step.state (step : Step shaken aided scope before after) : after.cell.state = before.cell.state ∨
    ∃ me was now rest effect items, Close shaken scope before.cell was effect items now ∧
      after.cell = effect.change me before.cell ∧ before.ends me = was ++ rest ∧ after.ends me = now ++ rest := by
  cases step with
  | idle cell =>
    obtain ⟨attributes, cell⟩ := cell
    exact .inl (by rw [cell])
  | build me rest build cell => exact .inl (by rw [cell, build.cell_ending.1])
  | close me rest close cell stood stands => exact .inr ⟨me, _, _, rest, _, _, close, cell, stood, stands⟩

theorem Step.inactive (step : Step shaken aided scope before after) (inactive : before.cell.state ≠ .active) :
    after.cell.state ≠ .active := by
  rcases step.state with same | ⟨me, was, now, rest, effect, items, close, cell, _⟩
  · rw [same]
    exact inactive
  · rw [cell]
    exact close.inactive fun active => absurd active inactive

theorem Leads.inactive (path : Leads shaken aided scope before after) (inactive : before.cell.state ≠ .active) :
    after.cell.state ≠ .active := by
  induction path with
  | refl => exact inactive
  | step _ next ih => exact next.inactive ih

theorem Lived.orderly (lived : Lived shaken aided scope life) : life.Orderly := by
  induction lived with
  | untouched untouched => exact untouched.orderly
  | step _ next ih => exact preserves_orderly ih next

end Life
end Lifespan
