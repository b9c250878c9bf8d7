import Lifespan.Proofs.Forgotten

-- The attributes of a scope are gone when it has been ended, unless a second thread sets one in between.
namespace Lifespan
variable {C : Client}

def Life.Bare (life : Life C) : Prop := life.cell.state = .destroyed ∨ ∃ thread, .settled ∈ life.ends thread

section
variable {world : World C} {me : ThreadId} {thread : Thread C} {move : Move C} {scope : ScopeRef} {effect : Effect C}

theorem Turn.setter (turn : Turn world me thread move) (sets : move.effect = .setAttribute scope name value) :
    thread.focus = .assign scope name value := by
  cases turn with
  | sets => cases sets; rfl
  | goOn _ own | answers own => simp only at sets; subst sets; cases own
  | backHooked | unwindHooked | backDropped | backReleased => simp at sets
  | _ => cases sets

theorem Turn.assigner (turn : Turn world me thread move) (assigns : move.focus = .assign scope name value) :
    world.isActive scope = true ∧ move.effect = .still ∧ ∃ next, thread.focus = .run (.call (.setAttribute scope name value) next) := by
  have named : move.focus.isPassed = false := by rw [assigns]; rfl
  cases turn with
  | assigns active => cases assigns; exact ⟨active, rfl, _, rfl⟩
  | calls starts => cases named.symm.trans (starts_passed starts)
  | admits | vouches => cases named.symm.trans (admitted_passed _)
  | refuses | disowns => cases named.symm.trans (refused_passed _ _)
  | leaves | reopens => cases named.symm.trans (exit_passed _)
  | backHooked | unwindHooked => cases named.symm.trans hooked_passed
  | backDropped | backReleased => simp at assigns
  | _ => cases assigns

theorem change_attributes {cell : Scope C} (target : effect.target? = some scope) (empty : cell.attributes = .empty)
    (sets : ∀ name value, effect ≠ .setAttribute scope name value) : (effect.change me cell).attributes = .empty := by
  cases effect with
  | setAttribute => cases target; exact absurd rfl (sets _ _)
  | removeAttribute =>
    simp only [Effect.change, empty]
    rfl
  | clearAttributes => rfl
  | _ => exact empty

theorem empty_attributes (empty : (world.cell scope).attributes = .empty)
    (sets : ∀ name value, effect ≠ .setAttribute scope name value) :
    ((effect.apply me world).cell scope).attributes = .empty := by
  rcases apply_cell effect me world scope with same | ⟨target, changed⟩ | ⟨_, _, _, _, fresh⟩
  · rw [same]
    exact empty
  · rw [changed]
    exact change_attributes target empty sets
  · rw [fresh]
    rfl

theorem Close.bares {shaken : Prop} {cell : Scope C} {was now : List Stage} {items : List (Item C)}
    (close : Close shaken scope cell was effect items now)
    (bare : (effect.change me cell).state = .destroyed ∨ .settled ∈ now) :
    cell.state = .destroyed ∨ .settled ∈ was ∨ (effect.change me cell).attributes = .empty := by
  cases close with
  | settle => exact .inr (.inr rfl)
  | mark => exact .inr (.inl (List.mem_singleton.mpr rfl))
  | retire =>
    rcases bare with destroyed | settled
    · cases destroyed
    · cases List.mem_singleton.mp settled
  | abandon | forget => exact .inl (bare.resolve_right (List.not_mem_nil))
  | _ =>
    rcases bare with destroyed | settled
    · exact .inl destroyed
    · cases List.mem_singleton.mp settled

end

namespace Life
variable {before after : Life C} {shaken aided : Prop} {scope : ScopeRef}

theorem Step.bare (step : Step shaken aided scope before after) (bare : after.Bare) :
    before.Bare ∨ after.cell.attributes = .empty := by
  cases step with
  | idle cell grips ends =>
    obtain ⟨attributes, cell⟩ := cell
    rw [Bare, ends, cell] at bare
    exact .inl bare
  | build me rest build cell held holds others ends =>
    rw [Bare, ends, cell, build.cell_ending.1] at bare
    exact .inl bare
  | @close was effect items now me rest close cell stood stands others =>
    have settled : .settled ∈ was → before.Bare := fun member => .inr ⟨me, stood ▸ List.mem_append_left rest member⟩
    have mine : (effect.change me before.cell).state = .destroyed ∨ .settled ∈ now → before.Bare ∨ after.cell.attributes = .empty := by
      intro bare
      rw [cell]
      rcases close.bares bare with destroyed | member | empty
      · exact .inl (.inl destroyed)
      · exact .inl (settled member)
      · exact .inr empty
    rcases bare with destroyed | ⟨thread, member⟩
    · exact mine (.inl (cell ▸ destroyed))
    · rcases come_or_kept stood stands others member with ⟨_, new⟩ | ⟨kept, _⟩
      · exact mine (.inr new)
      · exact .inl (.inr ⟨thread, kept⟩)

end Life

namespace System
variable {before after start system : System C} {program : C.Label → Code C} {memory : C.Memory} {code : Code C}
  {scope : ScopeRef} {registry : RegistryRef} {me : ThreadId} {thread : Thread C}

-- A thread that is alone and is about to set an attribute has just found the scope active.
structure Clean (system : System C) : Prop where
  assigning : ∀ thread ∈ system.threads, ∀ scope name value, thread.focus = .assign scope name value →
    (system.world.cell scope).state = .active
  empty : ∀ scope, (system.life scope).Bare → (system.world.cell scope).attributes = .empty

theorem alone_set {threads : List (Thread C)} {old new : Thread C} (single : threads.length = 1)
    (running : threads[me]? = some old) : threads.set me new = [new] := by
  obtain ⟨only, rfl⟩ := List.length_eq_one_iff.mp single
  have inside := (List.getElem?_eq_some_iff.mp running).1
  have first : me = 0 := by simpa using inside
  subst first
  rfl

theorem waited_assign {passed : Nat} (assigns : (waited passed thread).focus = .assign scope name value) :
    thread.focus = .assign scope name value := by
  rcases waited_cases passed thread with same | ⟨left, next, frames, rfl, same⟩
  · exact same ▸ assigns
  · rw [same] at assigns
    cases assigns

theorem preserves_assigning (assigning : ∀ thread ∈ before.threads, ∀ scope name value,
      thread.focus = .assign scope name value → (before.world.cell scope).state = .active)
    (change : Change before after) (single : before.threads.length = 1) :
    ∀ thread ∈ after.threads, ∀ scope name value, thread.focus = .assign scope name value →
      (after.world.cell scope).state = .active := by
  intro thread member scope name value assigns
  cases change with
  | turn running turn =>
    simp only [perform, alone_set single running] at member
    cases List.mem_singleton.mp member
    obtain ⟨active, still, _⟩ := turn.assigner assigns
    obtain ⟨cell, found, is⟩ := (Option.any_eq_true ..).mp active
    simp only [perform, still, record_cell, Effect.apply, cell_found found]
    exact of_decide_eq_true is
  | fork running =>
    rcases List.mem_append.mp member with old | new
    · rw [alone_set single running] at old
      cases List.mem_singleton.mp old
      cases assigns
    · obtain ⟨index, _, rfl⟩ := List.mem_map.mp new
      cases assigns
  | join running =>
    simp only [alone_set single running] at member
    cases List.mem_singleton.mp member
    cases assigns
  | time =>
    obtain ⟨old, there, rfl⟩ := List.mem_map.mp member
    exact assigning old there scope name value (waited_assign assigns)

theorem preserves_clean (path : Runs (initial program memory code) before) (clean : before.Clean) (change : Change before after)
    (single : before.threads.length = 1) : after.Clean := by
  refine ⟨preserves_assigning clean.assigning change single, fun scope bare => ?_⟩
  obtain ⟨me, effect, items, deeds, sets⟩ : ∃ me effect items, Deeds before after me effect items ∧
      ∀ name value, effect = .setAttribute scope name value → (before.world.cell scope).state = .active := by
    rcases change_deed change (runs_sound path) with ⟨me, thread, move, running, turn, deeds⟩ | ⟨me, deeds⟩
    · refine ⟨me, _, _, deeds, fun name value sets => ?_⟩
      exact clean.assigning thread (List.mem_of_getElem? running) scope name value (turn.setter sets)
    · exact ⟨me, _, _, deeds, nofun⟩
  rcases (step_life path deeds scope).bare bare with was | empty
  · rw [deeds.world, record_cell]
    refine empty_attributes (clean.empty scope was) fun name value same => ?_
    have active := sets name value same
    rcases was with destroyed | ⟨thread, settled⟩
    · cases active.symm.trans destroyed
    · have quiet := (runs_lived path scope).orderly.quiet active thread
      rw [quiet] at settled
      cases settled
  · exact empty

theorem runs_clean (path : Runs (initial program memory code) system) (single : system.threads.length = 1) : system.Clean := by
  induction path with
  | refl =>
    refine ⟨fun thread member scope name value assigns => ?_, fun scope _ => rfl⟩
    cases List.mem_singleton.mp member
    cases assigns
  | @step before after path next ih =>
    have alone := alone_before path (.step (.refl _) next) single
    exact preserves_clean path (ih alone) (step_change next) alone

end System

end Lifespan
