import Lifespan.Proofs.Ended
import Lifespan.Proofs.Uniqueness

-- What a factory was given while it ran was stored before what it makes, so it is still there when that
-- is torn down: a scope is torn down newest first, once before the destruction and once to destroy.
namespace Lifespan
variable {C : Client}

-- The hooks that the teardown of a scope has called so far. Hooks that somebody called by hand stand
-- between them.
structure System.Called (system : System C) (scope : ScopeRef) (calls : List HookCall) : Prop where
  within : calls <+: hooks scope (system.world.stored scope)
  made : calls.Sublist (system.world.calls scope)
  alone : ¬system.world.aided → system.world.calls scope = calls
  sofar : ∀ me teardown, .tearing teardown ∈ (system.life scope).ends me → calls = teardown.called
  ended : (system.world.cell scope).state = .destroyed → calls = hooks scope (system.world.stored scope)

def Preceded (calls : List HookCall) (first second : HookCall) : Prop :=
  ∀ sofar rest, calls = sofar ++ second :: rest → first ∈ sofar

section
variable {first second : HookCall} {calls whole : List HookCall} {scope : ScopeRef} {stored : List (String × InstanceRef)}
  {older newer : String × InstanceRef}

theorem preceded_within (distinct : whole.Nodup) (order : [first, second].Sublist whole) (within : calls <+: whole) :
    Preceded calls first second := by
  rintro sofar rest rfl
  obtain ⟨more, rfl⟩ := within
  rw [List.append_assoc, List.cons_append] at distinct order
  obtain ⟨before, after, same, early, late⟩ := List.sublist_append_iff.mp order
  have once := List.nodup_cons.mp (List.nodup_append.mp distinct).2.1
  cases before with
  | cons one others =>
    rw [(List.cons.inj same).1]
    exact early.subset (List.mem_cons_self ..)
  | nil =>
    -- then the second hook would stand there twice
    rw [List.nil_append] at same
    subst same
    have again : second ∈ rest ++ more := List.singleton_sublist.mp late.tail
    exact absurd again once.1

theorem befores_order (order : [older, newer].Sublist stored) :
    [.before newer.2 scope, .before older.2 scope].Sublist (hooks scope stored) := by
  have backwards := order.reverse.map fun one => HookCall.before one.2 scope
  exact backwards.trans (List.sublist_append_left _ _)

theorem destroys_order (order : [older, newer].Sublist stored) :
    [.destroy newer.2, .destroy older.2].Sublist (hooks scope stored) := by
  have backwards := order.reverse.map fun one => HookCall.destroy one.2
  exact backwards.trans (List.sublist_append_right _ _)

theorem phases_order (one : older ∈ stored) (other : newer ∈ stored) :
    [.before older.2 scope, .destroy newer.2].Sublist (hooks scope stored) := by
  have first : [HookCall.before older.2 scope].Sublist (stored.reverse.map fun one => .before one.2 scope) :=
    List.singleton_sublist.mpr (List.mem_map.mpr ⟨_, List.mem_reverse.mpr one, rfl⟩)
  have second : [HookCall.destroy newer.2].Sublist (stored.reverse.map fun one => .destroy one.2) :=
    List.singleton_sublist.mpr (List.mem_map.mpr ⟨_, List.mem_reverse.mpr other, rfl⟩)
  exact first.append second

theorem Stage.called_within {stage : Stage} (called : stage.called? scope stored = some calls)
    (mine : ∀ teardown, stage = .tearing teardown → teardown.scope = scope)
    (taken : ∀ entries, stage.entries? = some entries → stock entries = stored.reverse) :
    calls <+: hooks scope stored := by
  cases stage with
  | waiting | alone | emptied => cases called; exact List.nil_prefix
  | tearing teardown =>
    cases called
    exact mine teardown rfl ▸ Teardown.called_within (taken _ rfl)
  | cut => cases called
  | leaving whole =>
    cases whole with
    | true => cases called; exact List.prefix_refl _
    | false => cases called
  | torn | settled | told | answered => cases called; exact List.prefix_refl _

theorem Close.mine {shaken : Prop} {cell : Scope C} {was now : List Stage} {effect : Effect C} {items : List (Item C)}
    (close : Close shaken scope cell was effect items now) : ∀ teardown, .tearing teardown ∈ now → teardown.scope = scope := by
  intro teardown member
  cases close with
  | clear => cases List.mem_singleton.mp member; rfl
  | hook mine | fail mine | turnBack mine => cases List.mem_singleton.mp member; exact mine
  | abandon | forget => cases member
  | _ => cases List.mem_singleton.mp member

end

theorem Life.Lived.mine {shaken aided : Prop} {scope : ScopeRef} {life : Life C} (lived : Lived shaken aided scope life) :
    ∀ thread teardown, .tearing teardown ∈ life.ends thread → teardown.scope = scope := by
  induction lived with
  | untouched untouched => simp [untouched.ends]
  | step lived next ih =>
    intro thread teardown member
    cases next with
    | idle cell grips ends | build me rest build cell held holds others ends => exact ih thread teardown (ends ▸ member)
    | close me rest close cell stood stands others =>
      rcases come_or_kept stood stands others member with ⟨_, new⟩ | ⟨kept, _⟩
      · exact close.mine teardown new
      · exact ih thread teardown kept

namespace System
variable {start answered later system : System C} {program : C.Label → Code C} {memory : C.Memory} {code : Code C}
  {scope : ScopeRef} {me : ThreadId}

theorem stage_called {stage : Stage} {calls : List HookCall} (path : Runs (initial program memory code) system)
    (stands : stage ∈ (system.life scope).ends me) (called : stage.called? scope (system.world.stored scope) = some calls) :
    system.Called scope calls := by
  have lived := runs_lived path scope
  have has := lived.due.ends me stage stands calls called
  refine ⟨Stage.called_within called ?_ ?_, has.1, has.2, ?_, ?_⟩
  · rintro teardown rfl
    exact lived.mine me teardown stands
  · exact fun entries taken => lived.content.taken me stage stands entries taken
  · intro other teardown tears
    obtain ⟨mine, _⟩ := lived.orderly.owned (lived.orderly.only stands)
    by_cases same : other = me
    · subst same
      have both := (lived.orderly.only tears).symm.trans (lived.orderly.only stands)
      cases both
      cases called
      rfl
    · rw [mine.others other same] at tears
      cases tears
  · intro destroyed
    have states := (lived.orderly.owned (lived.orderly.only stands)).1.states stage stands
    cases stage with
    | waiting | alone | emptied | tearing => cases destroyed.symm.trans (states _ rfl)
    | cut => cases called
    | leaving whole =>
      cases whole with
      | true => cases called; rfl
      | false => cases called
    | torn | settled | told | answered => cases called; rfl

theorem runs_called (path : Runs (initial program memory code) system) (scope : ScopeRef) :
    ∃ calls, system.Called scope calls := by
  have lived := runs_lived path scope
  by_cases under : ∃ me, ∃ stage ∈ (system.life scope).ends me, (stage.called? scope (system.world.stored scope)).isSome
  · obtain ⟨me, stage, stands, known⟩ := under
    obtain ⟨calls, called⟩ := Option.isSome_iff_exists.mp known
    exact ⟨calls, stage_called path stands called⟩
  · have none : ∀ me teardown, .tearing teardown ∉ (system.life scope).ends me := fun me teardown tears =>
      under ⟨me, _, tears, rfl⟩
    by_cases destroyed : (system.world.cell scope).state = .destroyed
    · have has := lived.due.past destroyed
      exact ⟨_, List.prefix_refl _, has.1, has.2, fun me teardown tears => absurd tears (none me teardown), fun _ => rfl⟩
    · by_cases aided : system.world.aided
      · exact ⟨[], List.nil_prefix, List.nil_sublist _, absurd aided, fun me teardown tears => absurd tears (none me teardown),
          fun past => absurd past destroyed⟩
      · exact ⟨_, lived.due.sofar aided, List.Sublist.refl _, fun _ => rfl, fun me teardown tears =>
          absurd tears (none me teardown), fun past => absurd past destroyed⟩

theorem stored_behind {thread : Thread C} {frame : Frame C} (path : Runs (initial program memory code) system)
    (onward : Runs system later) (running : system.threads[me]? = some thread) (member : frame ∈ thread.frames)
    (builds : frame.factory? = some (scope, dependent)) (older : one ∈ system.world.stored scope)
    (newer : (dependent, made) ∈ later.world.stored scope) : [one, (dependent, made)].Sublist (later.world.stored scope) := by
  obtain ⟨more, same⟩ := stored_extends onward scope
  rw [← same] at newer ⊢
  have unstored := factory_unstored path running member builds
  have behind : (dependent, made) ∈ more :=
    (List.mem_append.mp newer).resolve_left fun early => unstored (List.mem_map_of_mem early)
  exact (List.singleton_sublist.mpr older).append (List.singleton_sublist.mpr behind)

theorem stored_keys (path : Runs (initial program memory code) system)
    (holds : key ∈ (system.world.cell scope).store.keys) :
    (system.world.cell scope).store.keys = (system.world.stored scope).map Prod.fst := by
  have content := (runs_lived path scope).content
  have open_ : ¬(system.life scope).Emptied := by
    intro emptied
    have empty : (system.world.cell scope).store = .empty := content.bare emptied
    rw [empty] at holds
    cases holds
  exact (content.full open_).order

-- If an accessor gives an instance while a factory of the same scope runs for another key, the key of the
-- instance stands before this one as long as the scope stores them, and in its teardown each hook of what
-- the factory makes is called before the same hook of the instance, and no instance is destroyed before
-- all have been told.
theorem dependencies_outlive {asked : Code C} {request : Request} {next : Reply C → Code C} {frames : List (Frame C)}
    {builder : Thread C} {frame : Frame C} (reached : Runs (initial program memory code) start)
    (asks : asked.accessor? = some (request, next)) (calls : start.threads[me]? = some ⟨.run asked, frames⟩)
    (waits : Awaits me (.user next :: frames) start answered)
    (given : answered.threads[me]? = some ⟨.back (.object object), .user next :: frames⟩)
    (there : builder ∈ answered.threads) (member : frame ∈ builder.frames)
    (builds : frame.factory? = some (request.scope, dependent)) (onward : Runs answered later) :
    (request.key, object) ∈ later.world.stored request.scope ∧
    (dependent ∈ (later.world.cell request.scope).store.keys →
      [request.key, dependent].Sublist (later.world.cell request.scope).store.keys) ∧
    (∃ calls, later.Called request.scope calls) ∧
    ∀ calls made, later.Called request.scope calls → (dependent, made) ∈ later.world.stored request.scope →
      Preceded calls (.before made request.scope) (.before object request.scope) ∧
      Preceded calls (.destroy made) (.destroy object) ∧
      ∀ one ∈ later.world.stored request.scope,
        Preceded calls (.before one.2 request.scope) (.destroy made) ∧
        Preceded calls (.before one.2 request.scope) (.destroy object) := by
  have path := reached.trans waits.runs
  obtain ⟨him, running⟩ := List.mem_iff_getElem?.mp there
  have stored := answers_stored reached asks calls waits given
  have kept := runs_stored onward _ _ stored
  have order : ∀ made, (dependent, made) ∈ later.world.stored request.scope →
      [(request.key, object), (dependent, made)].Sublist (later.world.stored request.scope) :=
    fun made newer => stored_behind path onward running member builds stored newer
  have whole := path.trans onward
  refine ⟨kept, fun holds => ?_, runs_called whole _, fun calls made called newer => ?_⟩
  · have keys := stored_keys whole holds
    rw [keys] at holds ⊢
    obtain ⟨⟨_, made⟩, newer, rfl⟩ := List.mem_map.mp holds
    exact (order made newer).map Prod.fst
  · have distinct : (hooks request.scope (later.world.stored request.scope)).Nodup := hooks_nodup whole
    refine ⟨preceded_within distinct (befores_order (order made newer)) called.within,
      preceded_within distinct (destroys_order (order made newer)) called.within, fun one stands => ⟨?_, ?_⟩⟩
    · exact preceded_within distinct (phases_order stands newer) called.within
    · exact preceded_within distinct (phases_order stands kept) called.within

def plainHooks : Hooks (Code ⟨Unit, Unit, Unit, Unit⟩) := ⟨fun _ => .done, fun _ => .done, .done⟩

def buildOuter : Reply ⟨Unit, Unit, Unit, Unit⟩ → Code ⟨Unit, Unit, Unit, Unit⟩ := fun _ => .built () plainHooks

def askInner (scope : ScopeRef) : Code ⟨Unit, Unit, Unit, Unit⟩ :=
  .resolve ⟨scope, "inner", "Inner"⟩ (fun _ => .built () plainHooks) buildOuter

def dependentPair : System ⟨Unit, Unit, Unit, Unit⟩ :=
  initial (fun _ => .done) () <| .call (.establish {}) fun _ => .call (.begin 0 ⟨.session, "a"⟩) fun _ =>
    .resolve ⟨⟨0, ⟨.session, "a"⟩, 0⟩, "outer", "Outer"⟩ askInner fun _ =>
    .call (.finish 0 ⟨.session, "a"⟩) fun _ => .done

theorem inner_outlives : ∃ inner outer calls, (run 44 (run 19 (run 17 dependentPair))).world.stored ⟨0, ⟨.session, "a"⟩, 0⟩ =
      [("inner", inner), ("outer", outer)] ∧
    (run 44 (run 19 (run 17 dependentPair))).Called ⟨0, ⟨.session, "a"⟩, 0⟩ calls ∧
    HookCall.destroy inner ∈ calls ∧ Preceded calls (.destroy outer) (.destroy inner) := by
  have asks : (askInner ⟨0, ⟨.session, "a"⟩, 0⟩).accessor? =
      some (⟨⟨0, ⟨.session, "a"⟩, 0⟩, "inner", "Inner"⟩, buildOuter) := rfl
  obtain ⟨_, _, ⟨calls, called⟩, order⟩ := dependencies_outlive (run_runs 17 dependentPair) asks rfl
    (show Awaits 0 _ _ _ from awaits_run 19 3 rfl (by decide)) rfl (List.mem_singleton.mpr rfl)
    (List.mem_cons_of_mem _ (List.mem_cons_self ..)) rfl (run_runs 44 (run 19 (run 17 dependentPair)))
  have whole : (run 44 (run 19 (run 17 dependentPair))).world.stored ⟨0, ⟨.session, "a"⟩, 0⟩ =
    [("inner", .kept ⟨0, ⟨.session, "a"⟩, 0⟩ 0), ("outer", .kept ⟨0, ⟨.session, "a"⟩, 0⟩ 1)] := by decide
  have destroyed : ((run 44 (run 19 (run 17 dependentPair))).world.cell ⟨0, ⟨.session, "a"⟩, 0⟩).state = .destroyed := by
    decide
  have hooks := called.ended destroyed
  rw [whole] at hooks
  refine ⟨_, _, calls, whole, called, by rw [hooks]; decide, ?_⟩
  exact (order calls _ called (whole ▸ List.mem_cons_of_mem _ (List.mem_cons_self ..))).2.1

end System
end Lifespan
