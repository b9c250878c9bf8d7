import Lifespan.Proofs.Cleared
import Lifespan.Proofs.Teardown

-- What is left of a scope that has been ended: every hook of its instances was called once and in order,
-- it holds nothing any more, and no registry knows it.
namespace Lifespan
variable {C : Client}

def HookCall.Kept (call : HookCall) : Prop :=
  (∃ object scope, call = .after object scope) ∨ ∃ scope index, call.object = .kept scope index

section
variable {shaken : Prop} {scope : ScopeRef} {cell : Scope C} {effect : Effect C} {items : List (Item C)} {me : ThreadId} {call : HookCall}

theorem plain_kept (plain : Item.isPlain (.hook call : Item C) = true) : call.Kept := by
  cases call with
  | after object scope => exact .inl ⟨object, scope, rfl⟩
  | before | destroy => cases plain

theorem Build.kept (build : Build scope cell me was effect items now) (member : .hook call ∈ items) : call.Kept := by
  cases build with
  | done ordinary => exact plain_kept (ordinary _ member)
  | make | keep => cases List.mem_singleton.mp member
  | _ => cases member

theorem Close.kept (close : Close shaken scope cell was effect items now)
    (own : ∀ stage ∈ was, ∀ key entry, stage.next? = some (key, entry) → ∃ index, entry.object = .kept scope index)
    (member : .hook call ∈ items) : call.Kept := by
  cases close with
  | fail _ ordinary => exact plain_kept (ordinary _ member)
  | @hook key entry rest teardown mine left =>
    cases List.mem_singleton.mp member
    obtain ⟨index, kept⟩ := own _ (List.mem_singleton.mpr rfl) key entry (by simp [Stage.next?, left])
    refine .inr ⟨scope, index, ?_⟩
    unfold Teardown.nextCall
    cases teardown.phase <;> exact kept
  | _ => cases member

end

namespace System
variable {before after start system : System C} {program : C.Label → Code C} {memory : C.Memory} {code : Code C}
  {scope : ScopeRef} {registry : RegistryRef} {me : ThreadId} {call : HookCall}

theorem deeds_kept (path : Runs (initial program memory code) before) (deeds : Deeds before after me effect items)
    (member : .hook call ∈ items) : call.Kept ∨ after.world.aided := by
  have deed := deeds.deed
  generalize isWas : before.posture me = was at deed
  generalize after.posture me = now at deed
  cases deed with
  | plain _ ordinary | register _ _ ordinary => exact .inl (plain_kept (ordinary _ member))
  | aside aided =>
    rw [deeds.world]
    exact .inr aided
  | @act place _ _ _ _ rest act =>
    cases act with
    | build build => exact .inl (build.kept member)
    | close close =>
      refine .inl (close.kept (fun stage there => ?_) member)
      refine (runs_lived path place).owned me stage ?_
      simp only [life, isWas, under_part]
      exact List.mem_append_left _ there

theorem runs_kept (path : Runs (initial program memory code) system) :
    ∀ call, .hook call ∈ system.world.chronicle → call.Kept ∨ system.world.aided := by
  induction path with
  | refl => exact fun _ member => nomatch member
  | step path next ih =>
    intro call member
    obtain ⟨me, effect, items, deeds⟩ := change_deeds (step_change next) (runs_sound path)
    rw [deeds.world, record_chronicle, apply_chronicle] at member
    rcases List.mem_append.mp member with old | new
    · exact (ih call old).imp_right (deeds_aided deeds)
    · exact deeds_kept path deeds new

theorem chronicle_calls {index : Nat} (member : .hook call ∈ system.world.chronicle) (kept : call.object = .kept scope index)
    (tears : ∀ object place, call ≠ .after object place) : call ∈ system.world.calls scope := by
  refine List.mem_filterMap.mpr ⟨_, member, ?_⟩
  cases call with
  | after => exact absurd rfl (tears _ _)
  | before | destroy =>
    cases (show _ = InstanceRef.kept scope index from kept)
    simp [Item.call?, HookCall.tearsDown]

theorem hooks_after_end (path : Runs (initial program memory code) system) (unaided : ¬system.world.aided)
    (member : .hook call ∈ system.world.chronicle) :
    (∃ object scope, call = .after object scope) ∨
      ∃ scope index, call.object = .kept scope index ∧ (system.world.cell scope).state ≠ .active := by
  by_cases after : ∃ object scope, call = .after object scope
  · exact .inl after
  · obtain ⟨scope, index, kept⟩ := ((runs_kept path call member).resolve_right unaided).resolve_left after
    refine .inr ⟨scope, index, kept, fun active => ?_⟩
    have there := chronicle_calls member kept fun object place same => after ⟨object, place, same⟩
    have none : system.world.calls scope = [] := ((runs_lived path scope).due.quiet active).2 unaided
    rw [none] at there
    cases there

theorem hooks_nodup (path : Runs (initial program memory code) system) : (hooks scope (system.world.stored scope)).Nodup := by
  have objects : (system.world.stored scope).map Prod.snd = (List.range _).map (InstanceRef.kept scope) :=
    (runs_lived path scope).content.objects
  have distinct : ((system.world.stored scope).reverse.map Prod.snd).Nodup := by
    rw [List.map_reverse, objects]
    refine (List.reverse_perm _).nodup_iff.mpr (List.pairwise_map.mpr ?_)
    exact List.nodup_range.imp fun apart same => apart (InstanceRef.kept.inj same).2
  have each : ∀ call : InstanceRef → HookCall, (∀ one two, call one = call two → one = two) →
      ((system.world.stored scope).reverse.map fun one => call one.2).Nodup := by
    intro call injective
    refine List.pairwise_map.mpr ?_
    exact (List.pairwise_map.mp distinct).imp fun apart same => apart (injective _ _ same)
  refine List.nodup_append.mpr ⟨each (fun object => .before object scope) ?_, each .destroy ?_, ?_⟩
  · exact fun one two same => (HookCall.before.inj same).1
  · exact fun one two same => HookCall.destroy.inj same
  · intro first before second destroy
    obtain ⟨_, _, rfl⟩ := List.mem_map.mp before
    obtain ⟨_, _, rfl⟩ := List.mem_map.mp destroy
    exact nofun

structure Ended (system : System C) (scope : ScopeRef) : Prop where
  destroyed : (system.world.cell scope).state = .destroyed
  torn : system.world.calls scope = hooks scope (system.world.stored scope)
  store : (system.world.cell scope).store.keys = []
  attributes : (system.world.cell scope).attributes.keys = []
  unregistered : ∀ registry id, system.world.occupant registry id ≠ some scope

theorem over_ended (path : Runs (initial program memory code) system) (calm : ¬system.world.shaken)
    (unaided : ¬system.world.aided) (single : system.threads.length = 1) (inactive : (system.world.cell scope).state ≠ .active)
    (past : ∀ thread, (system.life scope).ends thread = []) : system.Ended scope := by
  have lived := runs_lived path scope
  have destroyed : (system.world.cell scope).state = .destroyed := (lived.due.gone inactive past).resolve_left calm
  have store : (system.world.cell scope).store = .empty := lived.content.bare (lived.orderly.past destroyed)
  have attributes := (runs_clean path single).empty scope (.inl destroyed)
  refine ⟨destroyed, (lived.due.past destroyed).2 unaided, ?_, ?_, ?_⟩
  · rw [store]; rfl
  · rw [attributes]; rfl
  · exact (runs_letGo path scope inactive past).resolve_left calm

-- Nobody comes to end a scope that is not active any more.
theorem step_left {before after : Life C} {shaken aided : Prop} (step : Life.Step shaken aided scope before after)
    (inactive : before.cell.state ≠ .active) (past : before.ends me = []) : after.ends me = [] := by
  cases step with
  | idle cell grips ends => rw [ends]; exact past
  | build _ rest build cell held holds others ends => rw [ends]; exact past
  | close other rest close cell stood stands others =>
    by_cases mine : me = other
    · subst mine
      obtain ⟨rfl, _⟩ := List.append_eq_nil_iff.mp (stood.symm.trans past)
      cases close with
      | retire active => exact absurd active inactive
    · exact (others me mine).trans past

theorem step_over {before after : Life C} {shaken aided : Prop} (step : Life.Step shaken aided scope before after)
    (inactive : before.cell.state ≠ .active) (past : ∀ thread, before.ends thread = []) : ∀ thread, after.ends thread = [] :=
  fun thread => step_left step inactive (past thread)

theorem runs_over (path : Runs (initial program memory code) start) (onward : Runs start system)
    (inactive : (start.world.cell scope).state ≠ .active) (past : ∀ thread, (start.life scope).ends thread = []) :
    (system.world.cell scope).state ≠ .active ∧ ∀ thread, (system.life scope).ends thread = [] := by
  induction onward with
  | refl => exact ⟨inactive, past⟩
  | step onward next ih =>
    obtain ⟨inactive, past⟩ := ih
    have step := next_life (path.trans onward) next scope
    exact ⟨step.inactive inactive, step_over step inactive past⟩

theorem quiet_posture {thread : Thread C} (ended : thread.ending?.isSome) : thread.posture = ⟨[], []⟩ := by
  obtain ⟨focus, frames⟩ := thread
  unfold Thread.ending? at ended
  split at ended
  all_goals first | cases ended; done | skip
  all_goals
    rename_i isFocus isFrames
    cases (show focus = _ from isFocus)
    cases (show frames = _ from isFrames)
    rfl

theorem finished_over (finished : ∀ thread ∈ system.threads, thread.ending?.isSome) :
    ∀ thread, (system.life scope).ends thread = [] := by
  intro me
  simp only [life, posture]
  cases running : system.threads[me]? with
  | none => rfl
  | some thread =>
    have quiet := quiet_posture (finished thread (List.mem_of_getElem? running))
    simp only [Option.elim_some, quiet]
    rfl

-- Below the end of a scope nothing else of this ending waits, so with its reply the ending is over.
theorem returned_over {rest : List (Frame C)} {exit : Exit C} (path : Runs (initial program memory code) start)
    (ends : start.threads[me]? = some ⟨.exclude scope, .ended registry scope :: rest⟩)
    (returned : system.threads[me]? = some ⟨exit.focus, rest⟩) : (system.life scope).ends me = [] := by
  have member : .waiting ∈ (start.life scope).ends me := life_stage (focus_stage ends rfl)
  have only := (runs_lived path scope).orderly.only member
  have stood : (start.life scope).ends me = .waiting :: List.about scope (stages .other rest) := by
    simp only [life, posture_found ends]
    simp [Posture.part, Thread.posture, Focus.stage?, List.about, stages, Frame.stage?, Focus.upper, Frame.upper]
  rw [only] at stood
  have below : List.about scope (stages .other rest) = [] := (List.cons.inj stood).2.symm
  have borne := (runs_sound path _ (List.mem_of_getElem? ends)).stacked.1
  have same : (Thread.mk exit.focus rest).posture = background rest := exit_posture borne rfl
  simp only [life, posture_found returned, same]
  exact below

theorem alone_over {thread : Thread C} (single : system.threads.length = 1) (running : system.threads[me]? = some thread)
    (past : (system.life scope).ends me = []) : ∀ thread, (system.life scope).ends thread = [] := by
  intro other
  by_cases mine : other = me
  · exact mine ▸ past
  · have inside := (List.getElem?_eq_some_iff.mp running).1
    rw [single, Nat.lt_one_iff] at inside
    have beyond : system.threads.length ≤ other := by
      rw [single]
      exact Nat.one_le_iff_ne_zero.mpr (inside ▸ mine)
    have outside : system.threads[other]? = none := List.getElem?_eq_none beyond
    simp [life, posture, outside, Posture.part, List.about]

theorem taken_inactive {frames : List (Frame C)} (path : Runs (initial program memory code) system)
    (ends : system.threads[me]? = some ⟨.exclude scope, frames⟩) : (system.world.cell scope).state ≠ .active := by
  have member : .waiting ∈ (system.life scope).ends me := life_stage (focus_stage ends rfl)
  have orderly := (runs_lived path scope).orderly
  have state : (system.world.cell scope).state = _ := (orderly.owned (orderly.only member)).1.states _ member _ rfl
  simp [state]

theorem returned_ended {returned : System C} {rest : List (Frame C)} {exit : Exit C} (reached : Runs (initial program memory code) start)
    (ends : start.threads[me]? = some ⟨.exclude scope, .ended registry scope :: rest⟩) (onward : Runs start returned)
    (comes : returned.threads[me]? = some ⟨exit.focus, rest⟩) (later : Runs returned system) (calm : ¬system.world.shaken)
    (unaided : ¬system.world.aided) (single : system.threads.length = 1) : system.Ended scope := by
  have alone := alone_before (reached.trans onward) later single
  have inactive := (runs_leads reached onward scope).inactive (taken_inactive reached ends)
  have past := alone_over alone comes (returned_over reached ends comes)
  obtain ⟨inactive, past⟩ := runs_over (reached.trans onward) later inactive past
  exact over_ended ((reached.trans onward).trans later) calm unaided single inactive past

-- Where one thread runs, no listener panics and no hook is called by hand, the teardown of a scope calls
-- the hooks of all that was stored once each, first those before the destruction and then the
-- destruction itself, newest first both times, and none of them before somebody ends the scope. When
-- the ending is over the scope is destroyed, holds nothing and is registered nowhere.
theorem teardown_exactly_once (path : Runs (initial program memory code) system) (calm : ¬system.world.shaken)
    (unaided : ¬system.world.aided) (single : system.threads.length = 1) :
    (∀ call, .hook call ∈ system.world.chronicle →
      (∃ object scope, call = .after object scope) ∨
        ∃ scope index, call.object = .kept scope index ∧ (system.world.cell scope).state ≠ .active) ∧
    ∀ scope,
      ((system.world.cell scope).state = .active →
        (system.world.cell scope).store.keys = (system.world.stored scope).map Prod.fst) ∧
      (hooks scope (system.world.stored scope)).Nodup ∧
      system.world.calls scope <+: hooks scope (system.world.stored scope) ∧
      ((system.world.cell scope).state = .destroyed → system.world.calls scope = hooks scope (system.world.stored scope)) ∧
      ((system.world.cell scope).state ≠ .active → (∀ thread ∈ system.threads, thread.ending?.isSome) → system.Ended scope) ∧
      -- whoever has taken a scope out of its active state has ended it when his call comes back
      ∀ (me : ThreadId) (start returned : System C) (registry : RegistryRef) (rest : List (Frame C)) (exit : Exit C),
        Runs (initial program memory code) start → start.threads[me]? = some ⟨.exclude scope, .ended registry scope :: rest⟩ →
        Runs start returned → returned.threads[me]? = some ⟨exit.focus, rest⟩ → Runs returned system → system.Ended scope := by
  refine ⟨fun call member => hooks_after_end path unaided member, fun scope => ?_⟩
  have lived := runs_lived path scope
  refine ⟨?_, hooks_nodup path, lived.due.sofar unaided, fun destroyed => (lived.due.past destroyed).2 unaided, ?_, ?_⟩
  · intro active
    exact (lived.content.full fun emptied => emptied.1 active).order
  · intro inactive finished
    exact over_ended path calm unaided single inactive (finished_over finished)
  · intro me start returned registry rest exit reached ends onward comes later
    exact returned_ended reached ends onward comes later calm unaided single

-- Ends a session with two singletons. The hook that is called before the destruction of one of them ends
-- the session again, and its destruction fails.
def endingTwice : System ⟨Unit, Unit, Unit, Unit⟩ :=
  initial (fun _ => .done) () <| .call (.establish {}) fun _ => .call (.begin 0 ⟨.session, "a"⟩) fun _ =>
    .resolve ⟨⟨0, ⟨.session, "a"⟩, 0⟩, "first", "First"⟩
      (fun _ => .built () ⟨fun _ => .done, fun _ => .done, .done⟩) fun _ =>
    .resolve ⟨⟨0, ⟨.session, "a"⟩, 0⟩, "second", "Second"⟩
      (fun _ => .built () ⟨fun _ => .done, fun _ => .call (.finish 0 ⟨.session, "a"⟩) fun _ => .done, .fail (.words "no" [])⟩) fun _ =>
    .call (.finish 0 ⟨.session, "a"⟩) fun _ => .done

theorem ended_twice : (run 89 endingTwice).Ended ⟨0, ⟨.session, "a"⟩, 0⟩ ∧
    (run 89 endingTwice).world.stored ⟨0, ⟨.session, "a"⟩, 0⟩ =
      [("first", .kept ⟨0, ⟨.session, "a"⟩, 0⟩ 0), ("second", .kept ⟨0, ⟨.session, "a"⟩, 0⟩ 1)] := by
  have once := teardown_exactly_once (run_runs 89 endingTwice) (by decide) (by decide) (by decide)
  have finished := (once.2 ⟨0, ⟨.session, "a"⟩, 0⟩).2.2.2.2.1
  exact ⟨finished (by decide) (by decide), by decide⟩

end System
end Lifespan
