import Lifespan.Proofs.Access

-- Which hooks a teardown has called at each moment: of every instance that was stored, newest first, the
-- one before its destruction, and then of all of them again the destruction itself.
namespace Lifespan
variable {C : Client}

def hooks (scope : ScopeRef) (stored : List (String × InstanceRef)) : List HookCall :=
  (stored.reverse.map fun one => .before one.2 scope) ++ stored.reverse.map fun one => .destroy one.2

namespace Teardown

def visited (teardown : Teardown) : List (String × InstanceRef) :=
  stock (teardown.entries.take (teardown.entries.length - teardown.rest.length))

def called (teardown : Teardown) : List HookCall :=
  match teardown.phase with
  | .beforeDestroy => teardown.visited.map fun one => .before one.2 teardown.scope
  | .destroy => ((stock teardown.entries).map fun one => .before one.2 teardown.scope) ++
      teardown.visited.map fun one => .destroy one.2

variable {teardown : Teardown} {rest : List (String × Entry)}

theorem visited_all (left : teardown.rest = []) : teardown.visited = stock teardown.entries := by
  simp [visited, left]

theorem visited_next (suffix : teardown.rest <:+ teardown.entries) (left : teardown.rest = (key, entry) :: rest) :
    ({ teardown with rest } : Teardown).visited = teardown.visited ++ [(key, entry.object)] := by
  obtain ⟨before, same⟩ := suffix
  simp only [visited, ← same, left]
  have count : (before ++ (key, entry) :: rest).length - rest.length = before.length + 1 := by simp; omega
  have first : (before ++ (key, entry) :: rest).length - ((key, entry) :: rest).length = before.length := by simp
  rw [count, first]
  simp [stock, List.take_append, List.take_of_length_le]

theorem called_begin (scope : ScopeRef) (entries : List (String × Entry)) : (begin scope entries).called = [] := by
  simp [called, begin, visited, stock]

theorem called_next (suffix : teardown.rest <:+ teardown.entries) (left : teardown.rest = (key, entry) :: rest) :
    ({ teardown with rest } : Teardown).called = teardown.called ++ [teardown.nextCall entry] := by
  have next := visited_next suffix left
  obtain ⟨scope, entries, phase, left, failures⟩ := teardown
  cases phase <;> simp [called, nextCall, next]

theorem called_turned (phase : teardown.phase = .beforeDestroy) (left : teardown.rest = []) :
    ({ teardown with phase := .destroy, rest := teardown.entries } : Teardown).called = teardown.called := by
  simp only [called, phase, visited_all left]
  simp [visited, stock]

theorem called_over (phase : teardown.phase = .destroy) (left : teardown.rest = [])
    (taken : stock teardown.entries = stored.reverse) : teardown.called = hooks teardown.scope stored := by
  simp only [called, phase, visited_all left, taken, hooks]

theorem visited_within : teardown.visited <+: stock teardown.entries := by
  unfold visited stock
  rw [List.map_take]
  exact List.take_prefix _ _

theorem called_within (taken : stock teardown.entries = stored.reverse) : teardown.called <+: hooks teardown.scope stored := by
  unfold called hooks
  rw [← taken]
  cases teardown.phase with
  | beforeDestroy => exact (visited_within.map _).trans (List.prefix_append _ _)
  | destroy => exact List.prefix_append_right_inj _ |>.mpr (visited_within.map _)

end Teardown

-- The hooks that have been called when the ending of a scope has come so far, if nothing has gone wrong.
def Stage.called? (scope : ScopeRef) (stored : List (String × InstanceRef)) : Stage → Option (List HookCall)
  | waiting | alone | emptied _ => some []
  | tearing teardown => some teardown.called
  | cut | leaving false => none
  | torn | settled | told | leaving true | answered => some (hooks scope stored)

theorem Close.called {shaken : Prop} {scope : ScopeRef} {cell : Scope C} {was now : List Stage} {effect : Effect C}
    {items : List (Item C)} (close : Close shaken scope cell was effect items now)
    (left : ∀ teardown, .tearing teardown ∈ was → teardown.rest <:+ teardown.entries)
    (taken : ∀ stage ∈ was, ∀ entries, stage.entries? = some entries → stock entries = stored.reverse)
    (own : ∀ stage ∈ was, ∀ key entry, stage.next? = some (key, entry) → ∃ index, entry.object = .kept scope index) :
    ∀ stage ∈ now, ∀ calls, stage.called? scope stored = some calls →
      (cell.state = .active ∧ calls = [] ∧ items.filterMap (Item.call? scope) = []) ∨
        ∃ old ∈ was, ∃ before, old.called? scope stored = some before ∧
          calls = before ++ items.filterMap (Item.call? scope) := by
  intro stage member calls same
  cases close with
  | abandon | forget => cases member
  | retire active => cases List.mem_singleton.mp member; cases same; exact .inl ⟨active, rfl, rfl⟩
  | exclude | empty | settle | mark | leave | reopen =>
    cases List.mem_singleton.mp member
    cases same
    exact .inr ⟨_, List.mem_singleton.mpr rfl, _, rfl, (List.append_nil _).symm⟩
  | clear =>
    cases List.mem_singleton.mp member
    cases same
    exact .inr ⟨_, List.mem_singleton.mpr rfl, _, rfl, Teardown.called_begin _ _⟩
  | cut | flee => cases List.mem_singleton.mp member; cases same
  | @fail _ teardown _ _ ordinary =>
    cases List.mem_singleton.mp member
    cases same
    refine .inr ⟨_, List.mem_singleton.mpr rfl, _, rfl, ?_⟩
    rw [plain_calls ordinary, List.append_nil]
    rfl
  | turnBack mine phase visited =>
    cases List.mem_singleton.mp member
    cases same
    exact .inr ⟨_, List.mem_singleton.mpr rfl, _, rfl, by simp [Teardown.called_turned phase visited]⟩
  | tearDown mine phase visited =>
    cases List.mem_singleton.mp member
    cases same
    have past := Teardown.called_over phase visited (taken _ (List.mem_singleton.mpr rfl) _ rfl)
    exact .inr ⟨_, List.mem_singleton.mpr rfl, _, rfl, by simp [past, mine]⟩
  | @hook key entry rest teardown mine next =>
    cases List.mem_singleton.mp member
    cases same
    refine .inr ⟨_, List.mem_singleton.mpr rfl, _, rfl, ?_⟩
    obtain ⟨index, kept⟩ := own _ (List.mem_singleton.mpr rfl) key entry (by simp [Stage.next?, next])
    have called : Item.call? scope (.hook (teardown.nextCall entry) : Item C) = some (teardown.nextCall entry) := by
      unfold Teardown.nextCall
      cases teardown.phase <;> simp [Item.call?, HookCall.tearsDown, kept]
    rw [Teardown.called_next (left teardown (List.mem_singleton.mpr rfl)) next]
    simp [called]

theorem Close.calls_none {shaken : Prop} {scope : ScopeRef} {cell : Scope C} {was now : List Stage} {effect : Effect C}
    {items : List (Item C)} (close : Close shaken scope cell was effect items now) :
    items.filterMap (Item.call? scope) = [] ∨
      ∃ teardown next, was = [.tearing teardown] ∧ now = [.tearing next] ∧ next.scope = scope := by
  cases close with
  | fail _ ordinary => exact .inl (plain_calls ordinary)
  | hook mine => exact .inr ⟨_, _, rfl, rfl, mine⟩
  | _ => exact .inl rfl

section
variable {shaken : Prop} {scope : ScopeRef} {cell : Scope C} {was now : List Stage} {effect : Effect C} {items : List (Item C)}

theorem Close.destroys (close : Close shaken scope cell was effect items now)
    (destroyed : (effect.change me cell).state = .destroyed) : was = [.settled] ∨ cell.state = .destroyed := by
  cases close with
  | mark => exact .inl rfl
  | retire => cases destroyed
  | _ => exact .inr destroyed

theorem Close.broken (close : Close shaken scope cell was effect items now) :
    ∀ stage ∈ now, stage.state? = none ∨ stage = .cut → shaken := by
  intro stage member broken
  cases close with
  | cut panicked | flee panicked => exact panicked
  | abandon | forget => cases member
  | _ => cases List.mem_singleton.mp member; rcases broken with none | cut <;> contradiction

theorem Close.leaves (close : Close shaken scope cell was effect items []) : shaken ∨ was = [.answered] := by
  cases close with
  | abandon panicked => exact .inl panicked
  | forget => exact .inr rfl

end

namespace Life
variable {life before after : Life C} {me thread : ThreadId} {shaken aided : Prop} {scope : ScopeRef}

def Has (aided : Prop) (life : Life C) (calls : List HookCall) : Prop :=
  calls.Sublist life.calls ∧ (¬aided → life.calls = calls)

structure Due (shaken aided : Prop) (scope : ScopeRef) (life : Life C) : Prop where
  quiet : life.cell.state = .active → life.Has aided []
  ends : ∀ thread, ∀ stage ∈ life.ends thread, ∀ calls, stage.called? scope life.stored = some calls → life.Has aided calls
  past : life.cell.state = .destroyed → life.Has aided (hooks scope life.stored)
  sofar : ¬aided → life.calls <+: hooks scope life.stored
  -- an ending that has begun is under way or complete, if no panic came out of it
  whole : ∀ thread, ∀ stage ∈ life.ends thread, stage.state? = none ∨ stage = .cut → shaken
  gone : life.cell.state ≠ .active → (∀ thread, life.ends thread = []) → shaken ∨ life.cell.state = .destroyed

theorem Untouched.due (untouched : life.Untouched) : life.Due shaken aided scope := by
  refine ⟨fun _ => ⟨?_, fun _ => ?_⟩, ?_, ?_, fun _ => ?_, ?_, ?_⟩
  all_goals simp [untouched.cell, untouched.ends, untouched.calls, untouched.stored, Scope.fresh_eq]

variable {calls items : List HookCall}

theorem Has.more (has : before.Has aided calls) (same : after.calls = before.calls ++ items) : after.Has aided (calls ++ items) :=
  ⟨same ▸ List.Sublist.append_right has.1 items, fun alone => by rw [same, has.2 alone]⟩

theorem Has.same (has : before.Has aided calls) (same : after.calls = before.calls) : after.Has aided calls :=
  ⟨same ▸ has.1, fun alone => same ▸ has.2 alone⟩

theorem Has.grows (has : before.Has aided calls)
    (grows : after.calls = before.calls ∨ aided ∧ ∃ more, after.calls = before.calls ++ more) : after.Has aided calls := by
  rcases grows with same | ⟨helped, more, same⟩
  · exact has.same same
  · exact ⟨same ▸ has.1.trans (List.sublist_append_left _ _), fun alone => absurd helped alone⟩

theorem Due.open_ (due : life.Due shaken aided scope) (early : ¬life.Emptied) : life.Has aided [] := by
  by_cases active : life.cell.state = .active
  · exact due.quiet active
  · have begun : ∃ thread, ∃ stage ∈ life.ends thread, stage.isEarly = true := by
      apply Classical.byContradiction
      intro none
      refine early ⟨active, fun thread stage member => Bool.eq_false_iff.mpr fun is => none ⟨thread, stage, member, is⟩⟩
    obtain ⟨thread, stage, member, early⟩ := begun
    refine due.ends thread stage member [] ?_
    cases stage <;> first | rfl | cases early

theorem Due.keep (due : before.Due shaken aided scope) (state : after.cell.state = before.cell.state)
    (ends : after.ends = before.ends) (stored : after.stored = before.stored)
    (calls : after.calls = before.calls ∨ aided ∧ ∃ more, after.calls = before.calls ++ more) : after.Due shaken aided scope where
  quiet active := (due.quiet (state ▸ active)).grows calls
  ends := by
    rw [ends, stored]
    exact fun thread stage member called same => (due.ends thread stage member called same).grows calls
  past destroyed := by
    rw [stored]
    exact (due.past (state ▸ destroyed)).grows calls
  sofar alone := by
    rcases calls with same | ⟨helped, _⟩
    · rw [same, stored]; exact due.sofar alone
    · exact absurd helped alone
  whole := by rw [ends]; exact due.whole
  gone := by rw [state, ends]; exact due.gone

theorem Due.store (due : before.Due shaken aided scope) (orderly : before.Orderly) (early : ¬before.Emptied)
    (state : after.cell.state = before.cell.state) (ends : after.ends = before.ends) (calls : after.calls = before.calls) :
    after.Due shaken aided scope := by
  have none : after.Has aided [] := (due.open_ early).same calls
  refine ⟨fun _ => none, ?_, ?_, ?_, by rw [ends]; exact due.whole, by rw [state, ends]; exact due.gone⟩
  · intro thread stage member called same
    rw [ends] at member
    have is : stage.isEarly = true := by
      cases late : stage.isEarly with
      | true => rfl
      | false => exact absurd (orderly.emptied (orderly.only member) late) early
    have empty : called = [] := by cases stage <;> cases is <;> cases same <;> rfl
    exact empty ▸ none
  · intro destroyed
    rw [state] at destroyed
    exact absurd (orderly.past destroyed) early
  · intro alone
    rw [none.2 alone]
    exact List.nil_prefix

section
variable {was now rest : List Stage} {effect : Effect C} {hooked : List (Item C)}

theorem Due.called (due : before.Due shaken aided scope) (lived : Lived shaken aided scope before)
    (close : Close shaken scope before.cell was effect hooked now) (stood : before.ends me = was)
    (calls : after.calls = before.calls ++ hooked.filterMap (Item.call? scope)) :
    ∀ stage ∈ now, ∀ called, stage.called? scope before.stored = some called → after.Has aided called := by
  intro stage member called same
  have goes := close.called (stood ▸ lived.left me) (stood ▸ lived.content.taken me) (stood ▸ lived.owned me) stage member called same
  rcases goes with ⟨active, rfl, none⟩ | ⟨old, there, before, was, rfl⟩
  · rw [none, List.append_nil] at calls
    exact (due.quiet active).same calls
  · exact (due.ends me old (stood ▸ there) before was).more calls

theorem Due.marked (due : before.Due shaken aided scope) (mine : before.EndedBy me)
    (close : Close shaken scope before.cell was effect hooked now) (stood : before.ends me = was)
    (calls : after.calls = before.calls ++ hooked.filterMap (Item.call? scope))
    (destroyed : (effect.change me before.cell).state = .destroyed) : after.Has aided (hooks scope before.stored) := by
  have none : hooked.filterMap (Item.call? scope) = [] := by
    rcases close.calls_none with none | ⟨teardown, later, rfl, rfl, _⟩
    · exact none
    · rcases close.destroys destroyed with other | destroyed
      · cases other
      · have state := mine.states _ (stood ▸ List.mem_singleton.mpr rfl) _ rfl
        cases destroyed.symm.trans state
  rw [none, List.append_nil] at calls
  rcases close.destroys destroyed with rfl | destroyed
  · exact (due.ends me _ (stood ▸ List.mem_singleton.mpr rfl) _ rfl).same calls
  · exact (due.past destroyed).same calls

theorem EndedBy.gone (mine : before.EndedBy me) (close : Close shaken scope before.cell was effect hooked [])
    (stood : before.ends me = was) : shaken ∨ (effect.change me before.cell).state = .destroyed := by
  rcases close.leaves with panicked | rfl
  · exact .inl panicked
  · refine .inr ?_
    cases close
    exact mine.states _ (stood ▸ List.mem_singleton.mpr rfl) _ rfl

theorem Due.close (due : before.Due shaken aided scope) (lived : Lived shaken aided scope before) (next : Lived shaken aided scope after)
    (close : Close shaken scope before.cell was effect hooked now) (cell : after.cell = effect.change me before.cell)
    (stood : before.ends me = was ++ rest) (stands : after.ends me = now ++ rest)
    (others : ∀ other, other ≠ me → after.ends other = before.ends other) (stored : after.stored = before.stored)
    (calls : after.calls = before.calls ++ hooked.filterMap (Item.call? scope)) : after.Due shaken aided scope := by
  obtain ⟨mine, rfl⟩ := lived.orderly.solo close stood
  rw [List.append_nil] at stood stands
  have new : ∀ thread, ∀ stage ∈ after.ends thread, stage ∈ now := by
    intro thread stage member
    by_cases his : thread = me
    · subst his; exact stands ▸ member
    · rw [others thread his, mine.others thread his] at member
      cases member
  have ends := due.called lived close stood calls
  refine ⟨?_, ?_, ?_, ?_, fun thread stage member => close.broken stage (new thread stage member), ?_⟩
  · intro active
    rw [cell] at active
    exact absurd active (close.inactive (stood ▸ mine.silent))
  · rw [stored]
    exact fun thread stage member => ends stage (new thread stage member)
  · intro destroyed
    rw [stored]
    exact due.marked mine close stood calls (cell ▸ destroyed)
  · intro alone
    rcases close.calls_none with none | ⟨teardown, later, rfl, rfl, here⟩
    · rw [calls, none, List.append_nil, stored]
      exact due.sofar alone
    · have has := ends _ (List.mem_singleton.mpr rfl) _ rfl
      have taken := next.content.taken me _ (stands ▸ List.mem_singleton.mpr rfl) _ rfl
      rw [has.2 alone, ← here]
      exact Teardown.called_within taken
  · intro _ none
    have past : now = [] := stands.symm.trans (none me)
    subst past
    rw [cell]
    exact mine.gone close stood

end

theorem preserves_due (due : before.Due shaken aided scope) (lived : Lived shaken aided scope before)
    (step : Step shaken aided scope before after) : after.Due shaken aided scope := by
  have next : Lived shaken aided scope after := .step lived step
  cases step with
  | idle cell grips ends stored calls =>
    obtain ⟨attributes, cell⟩ := cell
    exact due.keep (by rw [cell]) ends stored calls
  | build me rest build cell held holds others ends stored calls =>
    have state := build.cell_ending.1
    rw [← cell] at state
    rcases build.stores with ⟨none, _⟩ | ⟨key, gate, made, rfl, rfl, rfl, rfl⟩
    · rw [none, List.append_nil] at stored
      exact due.keep state ends stored (.inl calls)
    · have early : ¬before.Emptied := fun emptied => by
        cases lived.shut emptied me (.making key gate) (by rw [held]; exact List.mem_cons_self ..)
      exact due.store lived.orderly early state ends calls
  | close me rest close cell stood stands others grips stored calls =>
    exact due.close lived next close cell stood stands others stored calls

theorem Lived.due (lived : Lived shaken aided scope life) : life.Due shaken aided scope := by
  induction lived with
  | untouched untouched => exact untouched.due
  | step lived next ih => exact preserves_due ih lived next

end Life
end Lifespan
