import Lifespan.Proofs.Loudness
import Lifespan.Proofs.Renaming

-- A program that begins scopes of one identity only does the same when this identity is of another kind, whether
-- the registry keeps one place for the kind or a place per id.
namespace Lifespan
variable {C : Client} {exchange : Exchange C} {world : World C} {home : ScopeId} {me : ThreadId} {frames : List (Frame C)}

-- Scopes are begun under one identity, and what is current is asked only where a scope is bound: without a binding
-- the one global or application scope would be current, but no session.
def Op.keepsTo (home : ScopeId) : Op C → Bool
  | .begin _ id => decide (id = home)
  | .current _ context kind | .requireCurrent _ context kind => (context.bound kind).isSome
  | _ => true

theorem renamed_current (registry : RegistryRef) {context : Context} {kind : Kind} (bound : (context.bound kind).isSome) :
    (world.renamed exchange).current registry (context.renamed exchange.swap) (exchange.swap kind) =
      (world.current registry context kind).map (ScopeRef.renamed exchange.swap) := by
  obtain ⟨scope, same⟩ := Option.isSome_iff_exists.mp bound
  simp only [World.current, Context.renamed, exchange.swap_again kind, same, Option.map_some, renamed_isActive]
  split <;> rfl

theorem renamed_wanted {context : Context} {kind : Kind} (bound : (context.bound kind).isSome) :
    (context.renamed exchange.swap).wanted (exchange.swap kind) = (context.wanted kind).renamed exchange.swap := by
  obtain ⟨scope, same⟩ := Option.isSome_iff_exists.mp bound
  simp only [Context.wanted, Context.renamed, exchange.swap_again kind, same]
  rfl

theorem read_renamed (sole : world.Sole home) {op : Op C} (keeps : op.keepsTo home = true) :
    (world.renamed exchange).read (op.renamed exchange) = (world.read op).map (Reply.renamed exchange) := by
  cases op with
  | settings registry =>
    simp only [World.read, Op.renamed, renamed_registry, Option.map_map]
    rfl
  | lookup registry id | require registry id =>
    simp only [World.read, Op.renamed, renamed_lookup sole]
    cases world.lookup registry id <;> rfl
  | current registry context kind =>
    simp only [World.read, Op.renamed, renamed_current registry keeps]
    cases world.current registry context kind <;> rfl
  | requireCurrent registry context kind =>
    simp only [World.read, Op.renamed, renamed_current registry keeps, renamed_wanted keeps]
    cases world.current registry context kind <;> rfl
  | activeCount registry kind =>
    simp only [World.read, Op.renamed, renamed_activeCount sole]
    rfl
  | ids registry kind =>
    simp only [World.read, Op.renamed, renamed_ids sole]
    rfl
  | state scope | keys scope | count scope =>
    simp only [World.read, Op.renamed, renamed_scope, Option.map_map]
    rfl
  | getAttribute scope name type =>
    simp only [World.read, Op.renamed, renamed_scope, Option.map_map]
    congr 1
    funext cell
    simp only [Function.comp, Scope.renamed, get?_mapValues]
    cases cell.attributes.get? name with
    | none => rfl
    | some value =>
      simp only [Option.map_some, Attribute.renamed]
      rw [apply_ite (Reply.renamed exchange)]
      rfl
  | attributeNames scope =>
    simp only [World.read, Op.renamed, renamed_scope, Option.map_map]
    simp [Function.comp_def, Scope.renamed, Table.keys, Table.mapValues, Reply.renamed]
  | contents object =>
    simp only [World.read, Op.renamed, renamed_instance, Option.map_map]
    rfl
  | _ => rfl

theorem renamed_hooks (hooks : Hooks (Code C)) (call : HookCall) :
    (hooks.renamed exchange).code (call.renamed exchange.swap) = (hooks.code call).renamed exchange := by
  obtain ⟨after, before, destroy⟩ := hooks
  cases call <;> simp [Hooks.renamed, Hooks.code, HookCall.renamed]

theorem renamed_ofEvent (settings : Settings) (event : Event) :
    Record.ofEvent settings (event.renamed exchange.swap) = (Record.ofEvent settings event).renamed exchange.swap := by
  cases event with
  | ended scope failures => cases failures <;> rfl
  | _ => rfl

theorem renamed_admitted (point : Point C) : (point.renamed exchange).admitted = point.admitted.renamed exchange := by
  cases point <;> rfl

theorem renamed_refused (point : Point C) (fault : Fault) :
    (point.renamed exchange).refused (fault.renamed exchange.swap) = (point.refused fault).renamed exchange := by
  cases point with
  | shared => rfl
  | sight place => cases place <;> rfl

@[simp] theorem renamed_scopeOf (point : Point C) : (point.renamed exchange).scope = point.scope.renamed exchange.swap := by
  cases point with
  | shared => rfl
  | sight place => cases place <;> rfl

@[simp] theorem renamed_exit (exit : Exit C) : (exit.renamed exchange).focus = exit.focus.renamed exchange := by cases exit <;> rfl

@[simp] theorem renamed_sight (sight : Sight C) : (sight.renamed exchange).scope = sight.scope.renamed exchange.swap := by
  cases sight <;> rfl

@[simp] theorem renamed_request (job : Job C) : (job.renamed exchange).request = job.request.renamed exchange.swap := rfl

@[simp] theorem renamed_wants (swap : Kind → Kind) (request : Request) : (request.renamed swap).scope = request.scope.renamed swap := rfl

theorem renamed_factory (job : Job C) :
    (job.renamed exchange).factory (job.renamed exchange).request.scope = (job.factory job.request.scope).renamed exchange :=
  congrArg (fun scope => (job.factory scope).renamed exchange) (scope_again job.request.scope)

theorem renamed_downcast (swap : Kind → Kind) (entry : Entry) (type : String) :
    (entry.renamed swap).downcast type = (entry.downcast type).map (InstanceRef.renamed swap) := by
  simp only [Entry.downcast, Entry.renamed]
  rw [apply_ite (Option.map _)]
  rfl

@[simp] theorem renamed_sighted (cell : Scope C) (request : Request) :
    Move.sighted (cell.renamed exchange) (request.renamed exchange.swap) = (Move.sighted cell request).map (Reply.renamed exchange) := by
  simp only [Move.sighted, Request.renamed, renamed_store, Option.map_map]
  congr 1
  funext entry
  simp only [Function.comp, renamed_downcast]
  cases entry.downcast request.type <;> rfl

theorem renamed_takeOut (swap : Kind → Kind) (keys : List String) (left : Table String Entry) :
    Store.takeOut keys (left.mapValues (Entry.renamed swap)) =
      (entriesRenamed swap (Store.takeOut keys left).1, (Store.takeOut keys left).2.mapValues (Entry.renamed swap)) := by
  fun_induction Store.takeOut keys left with
  | case1 => rfl
  | case2 key rest left absent ih => simp [Store.takeOut, absent, ih]
  | case3 key rest left entry present ih => simp [Store.takeOut, present, ← erase_mapValues, ih, entriesRenamed]

theorem renamed_drained (store : Store) (swap : Kind → Kind) :
    (store.renamed swap).drainNewestFirst.1 = entriesRenamed swap store.drainNewestFirst.1 :=
  congrArg Prod.fst (renamed_takeOut swap store.order.reverse store.entries)

theorem renamed_begin (scope : ScopeRef) (entries : List (String × Entry)) (swap : Kind → Kind) :
    Teardown.begin (scope.renamed swap) (entriesRenamed swap entries) = (Teardown.begin scope entries).renamed swap := by
  have length : (entriesRenamed swap entries).length = entries.length := List.length_map _
  simp only [Teardown.begin, length]
  rfl

theorem renamed_place (teardown : Teardown) (swap : Kind → Kind) : (teardown.renamed swap).place = teardown.place := by
  simp only [Teardown.place, Teardown.renamed, entriesRenamed, List.length_map]

theorem renamed_outcome (teardown : Teardown) (key : String) :
    (teardown.renamed exchange.swap).outcome key = (teardown.outcome key).renamed exchange.swap := by
  unfold Teardown.outcome
  rw [renamed_place]
  show (if teardown.failed.getD teardown.place false then _ else _) = _
  split <;> rfl

theorem renamed_record (teardown : Teardown) (failures : List Failure) (swap : Kind → Kind) :
    (teardown.renamed swap).record (renamedAll swap failures) = (teardown.record failures).renamed swap := by
  have empty : (renamedAll swap failures).isEmpty = failures.isEmpty := by rw [renamedAll_map, List.isEmpty_map]
  simp only [Teardown.record, renamed_place, empty]
  simp only [Teardown.renamed, renamedAll_append]

theorem renamed_hookCause (phase : Phase) (exit : Exit C) :
    Move.hookCause? phase (exit.renamed exchange) = (Move.hookCause? phase exit).map (Cause.renamed exchange.swap) := by
  cases exit with
  | unwind panic => obtain ⟨_ | _⟩ := panic <;> rfl
  | back reply => cases reply with
    | failed cause =>
      simp only [Exit.renamed, Reply.renamed, Move.hookCause?]
      rw [apply_ite (Option.map _)]
      rfl
    | _ => rfl

theorem silent_renamed (focus : Focus C) (frames : List (Frame C)) :
    (Move.silent focus frames).renamed exchange = .silent (focus.renamed exchange) (frames.map (Frame.renamed exchange)) := rfl

theorem changing_renamed (effect : Effect C) (focus : Focus C) (frames : List (Frame C)) :
    (Move.changing effect focus frames).renamed exchange =
      .changing (effect.renamed exchange) (focus.renamed exchange) (frames.map (Frame.renamed exchange)) := rfl

theorem callHook_renamed (call : HookCall) (frames : List (Frame C)) :
    Move.callHook (world.renamed exchange) (call.renamed exchange.swap) (frames.map (Frame.renamed exchange)) =
      (Move.callHook world call frames).map (Move.renamed exchange) := by
  have object : (call.renamed exchange.swap).object = call.object.renamed exchange.swap := by cases call <;> rfl
  simp only [Move.callHook, object, renamed_instance, Option.map_map]
  congr 1
  funext made
  simp [Move.renamed, Effect.renamed, Item.renamed, Focus.renamed, Instance.renamed, renamed_hooks]

theorem check_renamed (point : Point C) :
    Move.check (world.renamed exchange) (point.renamed exchange) (frames.map (Frame.renamed exchange)) =
      (Move.check world point frames).map (Move.renamed exchange) := by
  simp only [Move.check, renamed_scopeOf, renamed_scope, Option.map_map]
  congr 1
  funext cell
  simp only [Function.comp, Scope.renamed]
  cases cell.state with
  | active => rw [silent_renamed, renamed_admitted]
  | destructionPending => rfl
  | created | destroyed => exact congrArg (Move.silent · _) (renamed_refused point (.inactive point.scope.id))

theorem vouch_renamed (point : Point C) :
    Move.vouch (world.renamed exchange) me (point.renamed exchange) (frames.map (Frame.renamed exchange)) =
      (Move.vouch world me point frames).map (Move.renamed exchange) := by
  simp only [Move.vouch, renamed_scopeOf, renamed_scope, Option.map_map]
  congr 1
  funext cell
  simp only [Function.comp, Scope.renamed]
  rw [apply_ite (Move.renamed exchange), silent_renamed, silent_renamed, renamed_admitted, ← renamed_refused]
  rfl

theorem look_renamed (sight : Sight C) :
    Move.look (world.renamed exchange) (sight.renamed exchange) (frames.map (Frame.renamed exchange)) =
      (Move.look world sight frames).map (Move.renamed exchange) := by
  simp only [Move.look, renamed_sight, renamed_scope, Option.map_map]
  congr 1
  funext cell
  cases sight with
  | first job =>
    simp only [Function.comp, Sight.renamed, renamed_request, renamed_sighted]
    cases Move.sighted cell job.request <;> rfl
  | inside job gate =>
    simp only [Function.comp, Sight.renamed, renamed_factory]
    simp only [renamed_request, renamed_sighted]
    cases Move.sighted cell job.request <;> rfl
  | peek request =>
    simp only [Function.comp, Sight.renamed, renamed_sighted]
    rcases Move.sighted cell request with _ | reply
    · rfl
    · cases reply <;> rfl
  | holds scope key =>
    simp [Sight.renamed, Store.contains, Table.contains, Scope.renamed, Store.renamed, Move.silent, Move.renamed, Focus.renamed,
      Reply.renamed, Effect.renamed]

theorem share_renamed (job : Job C) : Move.share (world.renamed exchange) (job.renamed exchange) (frames.map (Frame.renamed exchange)) =
    (Move.share world job frames).map (Move.renamed exchange) := by
  simp only [Move.share, renamed_request, renamed_wants, renamed_scope, Option.bind_eq_bind, Option.bind_map]
  cases world.scope? job.request.scope with
  | none => rfl
  | some cell =>
    simp only [Option.bind_some, Function.comp, Scope.renamed]
    rw [apply_ite (Option.map (Move.renamed exchange))]
    rfl

theorem queue_renamed (job : Job C) :
    Move.queue (world.renamed exchange) me (job.renamed exchange) (frames.map (Frame.renamed exchange)) =
      (Move.queue world me job frames).map (Move.renamed exchange) := by
  simp only [Move.queue, renamed_request, renamed_wants, renamed_scope, Option.map_map]
  congr 1
  funext cell
  simp only [Function.comp, Scope.renamed]
  rw [apply_ite (Move.renamed exchange)]
  rfl

theorem turn_renamed (job : Job C) (gate : GateRef) :
    Move.turn (world.renamed exchange) (job.renamed exchange) gate (frames.map (Frame.renamed exchange)) =
      (Move.turn world job gate frames).map (Move.renamed exchange) := by
  simp only [Move.turn, renamed_request, renamed_wants, renamed_scope, Option.bind_eq_bind, Option.bind_map]
  cases world.scope? job.request.scope with
  | none => rfl
  | some cell =>
    simp only [Option.bind_some, Function.comp, Scope.renamed]
    rcases cell.turns[gate]? with _ | _ | _ <;> rfl

theorem leave_renamed (scope : ScopeRef) (hold : Hold) (exit : Exit C) :
    Move.leave (scope.renamed exchange.swap) hold (exit.renamed exchange) (frames.map (Frame.renamed exchange)) =
      (Move.leave scope hold exit frames).renamed exchange := by
  cases hold <;> simp only [Move.leave, changing_renamed, renamed_exit] <;> rfl

theorem find_renamed (sole : world.Sole home) (registry : RegistryRef) (id : ScopeId) :
    Move.find (world.renamed exchange) registry (id.renamed exchange.swap) (frames.map (Frame.renamed exchange)) =
      (Move.find world registry id frames).renamed exchange := by
  simp only [Move.find, renamed_registered sole]
  cases world.registered registry id <;> rfl

theorem retire_renamed (scope : ScopeRef) :
    Move.retire (world.renamed exchange) (scope.renamed exchange.swap) (frames.map (Frame.renamed exchange)) =
      (Move.retire world scope frames).map (Move.renamed exchange) := by
  simp only [Move.retire, renamed_scope, Option.map_map]
  congr 1
  funext cell
  simp only [Function.comp]
  rw [apply_ite (Move.renamed exchange)]
  rfl

theorem exclude_renamed (scope : ScopeRef) :
    Move.exclude (world.renamed exchange) (scope.renamed exchange.swap) (frames.map (Frame.renamed exchange)) =
      (Move.exclude world scope frames).map (Move.renamed exchange) := by
  simp only [Move.exclude, renamed_scope, Option.bind_eq_bind, Option.bind_map]
  cases world.scope? scope with
  | none => rfl
  | some cell =>
    simp only [Option.bind_some, Function.comp, Scope.renamed]
    rw [apply_ite (Option.map (Move.renamed exchange))]
    rfl

theorem empty_renamed (scope : ScopeRef) :
    Move.empty (world.renamed exchange) (scope.renamed exchange.swap) (frames.map (Frame.renamed exchange)) =
      (Move.empty world scope frames).map (Move.renamed exchange) := by
  simp only [Move.empty, renamed_scope, Option.map_map]
  congr 1
  funext cell
  simp only [Function.comp, Scope.renamed, renamed_drained]
  rfl

theorem clear_renamed (scope : ScopeRef) (entries : List (String × Entry)) :
    Move.clear (scope.renamed exchange.swap) (entriesRenamed exchange.swap entries) (frames.map (Frame.renamed exchange)) =
      (Move.clear scope entries frames).renamed exchange := by
  simp only [Move.clear, renamed_begin]
  rfl

theorem tear_renamed (teardown : Teardown) :
    Move.tear (world.renamed exchange) (teardown.renamed exchange.swap) (frames.map (Frame.renamed exchange)) =
      (Move.tear world teardown frames).map (Move.renamed exchange) := by
  obtain ⟨scope, entries, phase, rest, failures, failed⟩ := teardown
  cases phase with
  | beforeDestroy => cases rest with
    | nil => rfl
    | cons one rest =>
      exact callHook_renamed (.before one.2.object scope) (.hooked ⟨scope, entries, .beforeDestroy, rest, failures, failed⟩ one.1 :: frames)
  | destroy => cases rest with
    | nil => rfl
    | cons one rest =>
      exact callHook_renamed (.destroy one.2.object) (.hooked ⟨scope, entries, .destroy, rest, failures, failed⟩ one.1 :: frames)

theorem hooked_renamed (teardown : Teardown) (key : String) (exit : Exit C) :
    Move.hooked (teardown.renamed exchange.swap) key (exit.renamed exchange) (frames.map (Frame.renamed exchange)) =
      (Move.hooked teardown key exit frames).renamed exchange := by
  have new : (Move.hookCause? teardown.phase (exit.renamed exchange)).toList.map
      (Failure.hook (teardown.scope.renamed exchange.swap).id key teardown.phase) =
        renamedAll exchange.swap ((Move.hookCause? teardown.phase exit).toList.map (Failure.hook teardown.scope.id key teardown.phase)) := by
    rw [renamed_hookCause]
    cases Move.hookCause? teardown.phase exit <;> rfl
  have items (all : List Failure) : (renamedAll exchange.swap all).map (Item.logged ∘ .hookFailed) =
      (all.map (Item.logged ∘ .hookFailed)).map (Item.renamed exchange) := by
    simp [renamedAll_map, Item.renamed, Record.renamed]
  have phase : (teardown.renamed exchange.swap).phase = teardown.phase := rfl
  have scope : (teardown.renamed exchange.swap).scope = teardown.scope.renamed exchange.swap := rfl
  simp only [Move.hooked, phase, scope, new, renamed_record, renamed_outcome]
  cases teardown.phase <;> exact (Move.mk.injEq ..).mpr ⟨rfl, items _, rfl, rfl⟩

theorem emit_renamed (registry : RegistryRef) (event : Event) :
    Move.emit (world.renamed exchange) registry (event.renamed exchange.swap) (frames.map (Frame.renamed exchange)) =
      (Move.emit world registry event frames).map (Move.renamed exchange) := by
  simp only [Move.emit, renamed_registry, Option.map_map, renamed_ofEvent]
  rfl

theorem deliver_renamed (registry : RegistryRef) (event : Event) :
    Move.deliver (world.renamed exchange) registry (event.renamed exchange.swap) (frames.map (Frame.renamed exchange)) =
      (Move.deliver world registry event frames).map (Move.renamed exchange) := by
  simp only [Move.deliver, renamed_registry, Option.map_map]
  congr 1
  funext cell
  simp only [Function.comp, Registry.renamed]
  cases cell.listener with
  | none => rfl
  | some listener => simp [Move.renamed, Effect.renamed, Item.renamed, Focus.renamed, Frame.renamed]

theorem gather_renamed (sole : world.Sole home) (registry : RegistryRef) :
    Move.gather (world.renamed exchange) registry (frames.map (Frame.renamed exchange)) =
      (Move.gather world registry frames).map (Move.renamed exchange) := by
  simp only [Move.gather, renamed_registry, renamed_leftovers sole, Option.map_map]
  congr 1
  funext cell
  simp only [Function.comp, Registry.renamed, Move.renamed]
  by_cases warns : cell.settings.warnOnLeftoverScopes = true <;>
    simp [Effect.renamed, Focus.renamed, Frame.renamed, Event.renamed, renamedAll, Item.renamed, Record.renamed, Function.comp_def, warns]

theorem begin_renamed (sole : world.Sole home) (registry : RegistryRef) :
    Move.begin (world.renamed exchange) registry (home.renamed exchange.swap) (frames.map (Frame.renamed exchange)) =
      (Move.begin world registry home frames).map (Move.renamed exchange) := by
  simp only [Move.begin, renamed_registry, renamed_nextScope, Option.map_map]
  refine Option.map_congr fun cell found => ?_
  obtain ⟨who, here, there, own, moved⟩ := sole_cell exchange sole found
  simp only [Function.comp, there, here, sole_occupant own, sole_occupant moved, Option.any_map, renamed_isAlive]
  rw [apply_ite (Move.renamed exchange)]
  rfl

theorem ended_renamed (registry : RegistryRef) (scope : ScopeRef) (reply : Reply C) :
    Move.ended registry (scope.renamed exchange.swap) (reply.renamed exchange) (frames.map (Frame.renamed exchange)) =
      (Move.ended registry scope reply frames).renamed exchange := by
  cases reply with
  | fault fault => cases fault <;> rfl
  | _ => rfl

theorem released_renamed (guard : Guard) (reply : Reply C) :
    Move.released (guard.renamed exchange.swap) (reply.renamed exchange) (frames.map (Frame.renamed exchange)) =
      (Move.released guard reply frames).renamed exchange := by
  cases reply with
  | fault fault => cases fault <;> rfl
  | _ => rfl

theorem dropped_renamed (reply : Reply C) :
    Move.dropped (reply.renamed exchange) (frames.map (Frame.renamed exchange)) = (Move.dropped reply frames).renamed exchange := by
  cases reply with
  | failures failures => cases failures <;> rfl
  | _ => rfl

theorem sweep_renamed (registry : RegistryRef) (remaining : List ScopeId) (failures : List Failure) :
    Move.sweep registry (remaining.map (ScopeId.renamed exchange.swap)) (renamedAll exchange.swap failures)
        (frames.map (Frame.renamed exchange)) =
      (Move.sweep registry remaining failures frames).renamed exchange := by
  cases remaining <;> rfl

theorem gathered_renamed (failures : List Failure) (reply : Reply C) :
    Move.gathered (renamedAll exchange.swap failures) (reply.renamed exchange) =
      renamedAll exchange.swap (Move.gathered failures reply) := by
  cases reply with
  | fault fault => cases fault with
    | destruction more => simp [Reply.renamed, Fault.renamed, Move.gathered, renamedAll_map]
    | _ => rfl
  | _ => rfl

theorem back_renamed (reply : Reply C) :
    Move.back (world.renamed exchange) (reply.renamed exchange) (frames.map (Frame.renamed exchange)) =
      (Move.back world reply frames).map (Move.renamed exchange) := by
  cases frames with
  | nil => rfl
  | cons frame rest =>
    cases frame with
    | user next => simp [Frame.renamed, Move.back, silent_renamed, Focus.renamed]
    | created job gate object => exact callHook_renamed (.after object job.request.scope) (.welcomed job gate object :: rest)
    | hooked teardown key => exact congrArg some (hooked_renamed teardown key (.back reply))
    | factory => cases reply <;> rfl
    | torn scope => cases reply <;> rfl
    | closed scope failures => cases failures <;> rfl
    | ended registry scope => exact congrArg some (ended_renamed registry scope reply)
    | sweeping registry remaining failures =>
      simp only [List.map_cons, Frame.renamed, Move.back, gathered_renamed, sweep_renamed, Option.map_some]
    | dropped => exact congrArg some (dropped_renamed reply)
    | released guard => exact congrArg some (released_renamed guard reply)
    | invoked hook => cases hook <;> cases reply <;> rfl
    | _ => rfl

theorem unwind_renamed (panic : Panic) :
    Move.unwind panic (frames.map (Frame.renamed exchange)) = (Move.unwind panic frames).map (Move.renamed exchange) := by
  cases frames with
  | nil => rfl
  | cons frame rest =>
    cases frame with
    | hooked teardown key => exact congrArg some (hooked_renamed teardown key (.unwind panic))
    | _ => rfl

theorem call_renamed (sole : world.Sole home) {op : Op C} (keeps : op.keepsTo home = true) :
    Move.call (world.renamed exchange) (op.renamed exchange) (frames.map (Frame.renamed exchange)) =
      (Move.call world op frames).map (Move.renamed exchange) := by
  have asks : (world.renamed exchange).read (op.renamed exchange) = _ := read_renamed sole keeps
  cases op with
  | establish =>
    simp [Op.renamed, Move.call, World.renamed, changing_renamed, Effect.renamed, Focus.renamed, Reply.renamed]
  | begin registry id =>
    cases of_decide_eq_true keeps
    exact begin_renamed sole registry
  | drop registry =>
    simp only [Op.renamed, Move.call, renamed_hasLiving sole]
    rw [apply_ite (Option.map (Move.renamed exchange))]
    rfl
  | setAttribute scope name value =>
    simp only [Op.renamed, Move.call, renamed_scope, Option.map_map]
    congr 1
    funext cell
    simp only [Function.comp]
    rw [apply_ite (Move.renamed exchange)]
    rfl
  | removeAttribute scope name =>
    simp only [Op.renamed, Move.call, renamed_scope, Option.map_map]
    congr 1
    funext cell
    simp [Table.contains, Scope.renamed, changing_renamed, Effect.renamed, Focus.renamed, Reply.renamed]
  | destroyAll scope store =>
    simp only [Op.renamed, Move.call, renamed_drained, renamed_begin]
    rfl
  | invoke hook => exact callHook_renamed hook (.invoked hook :: frames)
  | silence | finish | endGuard | dropGuard | shutdown | peek | holds => rfl
  | _ =>
    simp only [Op.renamed] at asks
    simp only [Op.renamed, Move.call, asks, Option.map_map]
    rfl

def Focus.keepsTo (home : ScopeId) : Focus C → Bool
  | .run (.call op _) => op.keepsTo home
  | _ => true

theorem run_renamed (sole : world.Sole home) {code : Code C} (keeps : (Focus.run code).keepsTo home = true) :
    Move.run (world.renamed exchange) (code.renamed exchange) (frames.map (Frame.renamed exchange)) =
      (Move.run world code frames).map (Move.renamed exchange) := by
  cases code with
  | built datum hooks =>
    cases frames with
    | nil => rfl
    | cons frame rest =>
      cases frame with
      | factory job gate =>
        simp only [Code.renamed, Move.run, List.map_cons, Frame.renamed, Move.keep, renamed_request, renamed_wants, renamed_nextInstance]
        rfl
      | _ => rfl
  | jump label => simp [Code.renamed, Move.run, World.renamed, silent_renamed, Focus.renamed, exchange.label_again _]
  | access update next =>
    simp [Code.renamed, Move.run, World.renamed, changing_renamed, Effect.renamed, Focus.renamed, exchange.memory_again _]
  | await ready next =>
    simp only [Code.renamed, Move.run, World.renamed, exchange.memory_again _]
    rw [apply_ite (Option.map (Move.renamed exchange))]
    rfl
  | pause time next =>
    simp only [Code.renamed, Move.run]
    rw [apply_ite (Option.map (Move.renamed exchange))]
    rfl
  | awaitState scope state next =>
    simp only [Code.renamed, Move.run, renamed_scope, Option.bind_eq_bind, Option.bind_map]
    cases world.scope? scope with
    | none => rfl
    | some cell =>
      simp only [Option.bind_some, Function.comp]
      rw [apply_ite (Option.map (Move.renamed exchange))]
      rfl
  | call op next =>
    simp only [Code.renamed, Move.run]
    have called : Move.call (world.renamed exchange) (op.renamed exchange) ((.user next :: frames).map (Frame.renamed exchange)) = _ :=
      call_renamed sole keeps
    refine (congrArg (Option.map _) called).trans ?_
    rw [Option.map_map, Option.map_map]
    rfl
  | make =>
    simp [Code.renamed, Move.run, changing_renamed, World.renamed, Effect.renamed, Instance.renamed, Focus.renamed, Reply.renamed,
      InstanceRef.renamed]
  | _ => rfl

theorem mark_renamed (scope : ScopeRef) (failures : List Failure) :
    Move.mark (scope.renamed exchange.swap) (renamedAll exchange.swap failures) (frames.map (Frame.renamed exchange)) =
      (Move.mark scope failures frames).renamed exchange := by
  simp only [Move.mark, renamedAll_map, List.length_map, changing_renamed, Focus.renamed, Event.renamed, List.map_cons, Frame.renamed]
  rfl

-- Every move but a look at the registry is the same whatever it holds, as long as references stay apart.
theorem next_renamed {thread : Thread C} (sole : world.Sole home) (keeps : thread.focus.keepsTo home = true) :
    (thread.renamed exchange).next (world.renamed exchange) me = (thread.next world me).map (Move.renamed exchange) := by
  obtain ⟨focus, frames⟩ := thread
  cases focus with
  | run code => exact run_renamed sole keeps
  | back reply => exact back_renamed reply
  | unwind panic => exact unwind_renamed panic
  | emit registry event => exact emit_renamed registry event
  | deliver registry event => exact deliver_renamed registry event
  | check point => exact check_renamed point
  | vouch point => exact vouch_renamed point
  | look sight => exact look_renamed sight
  | share job => exact share_renamed job
  | queue job => exact queue_renamed job
  | turn job gate => exact turn_renamed job gate
  | leave scope hold exit => exact congrArg some (leave_renamed scope hold exit)
  | find registry id => exact congrArg some (find_renamed sole registry id)
  | retire scope => exact retire_renamed scope
  | exclude scope => exact exclude_renamed scope
  | empty scope => exact empty_renamed scope
  | clear scope entries => exact congrArg some (clear_renamed scope entries)
  | tear teardown => exact tear_renamed teardown
  | gather registry => exact gather_renamed sole registry
  | mark scope failures => exact congrArg some (mark_renamed scope failures)
  | reopen scope exit => exact congrArg some (by simp only [changing_renamed, renamed_exit]; rfl)
  | _ => rfl

theorem turn_registers {thread : Thread C} {move : Move C} (turn : Turn world me thread move)
    (keeps : thread.focus.keepsTo home = true) :
    ∀ registry id, move.effect.registered? = some (registry, id) → id = home := by
  intro registry id begins
  cases turn with
  | begins => cases begins; exact of_decide_eq_true keeps
  | goOn _ own | answers own => cases (plain_registered (own_plain own)).symm.trans begins
  | backHooked | unwindHooked | backDropped | backReleased => simp [Effect.registered?] at begins
  | _ => cases begins

theorem rests_renamed (focus : Focus C) : (focus.renamed exchange).rests = focus.rests := by
  cases focus with
  | run code => cases code <;> rfl
  | _ => rfl

theorem thread_ending (thread : Thread C) : (thread.renamed exchange).ending? = thread.ending?.map (Ending.renamed exchange.swap) := by
  obtain ⟨focus, frames⟩ := thread
  cases frames with
  | nil => cases focus with
    | back reply => cases reply <;> rfl
    | _ => rfl
  | cons => cases focus with
    | back reply => cases reply <;> rfl
    | _ => rfl

namespace System
variable {before after system start : System C} {program : C.Label → Code C} {memory : C.Memory} {code : Code C}

theorem record_renamed (items : List (Item C)) :
    record (world.renamed exchange) me (items.map (Item.renamed exchange)) = (record world me items).renamed exchange := by
  simp [record, World.renamed, Function.comp_def]

theorem endings_renamed (names : List ThreadId) :
    (system.renamed exchange).endings names =
      (system.endings names).map (List.map fun one => (one.1, one.2.renamed exchange.swap)) := by
  unfold endings
  induction names with
  | nil => rfl
  | cons name rest ih =>
    simp only [List.mapM_cons, ih]
    simp only [System.renamed, List.getElem?_map]
    cases system.threads[name]? with
    | none => rfl
    | some thread =>
      simp only [Option.map_some, Option.bind_eq_bind, Option.bind_some, thread_ending]
      cases thread.ending? with
      | none => rfl
      | some ending => simp [Option.map_bind, Option.bind_map]

theorem perform_renamed (sole : system.world.Sole home) {move : Move C}
    (keeps : ∀ registry id, move.effect.registered? = some (registry, id) → id = home) :
    (system.renamed exchange).perform me (move.renamed exchange) = (system.perform me move).renamed exchange := by
  simp only [perform, System.renamed, List.map_set, ← record_renamed, apply_renamed sole keeps]
  rfl

theorem advance_renamed (sole : system.world.Sole home)
    (keeps : ∀ thread, system.threads[me]? = some thread → thread.focus.keepsTo home = true) :
    (system.renamed exchange).advance me = (system.advance me).map (System.renamed exchange) := by
  cases running : system.threads[me]? with
  | none => simp [advance, System.renamed, running]
  | some thread =>
    obtain ⟨focus, frames⟩ := thread
    have there : (system.renamed exchange).threads[me]? = some (Thread.renamed exchange ⟨focus, frames⟩) := by
      simp [System.renamed, running]
    have moves : (Thread.renamed exchange ⟨focus, frames⟩).next (system.world.renamed exchange) me = _ :=
      next_renamed sole (keeps _ running)
    have own (first : system.advance me = ((⟨focus, frames⟩ : Thread C).next system.world me).map (system.perform me))
        (second : (system.renamed exchange).advance me =
          ((Thread.renamed exchange ⟨focus, frames⟩).next (system.world.renamed exchange) me).map
            ((system.renamed exchange).perform me)) :
        (system.renamed exchange).advance me = (system.advance me).map (System.renamed exchange) := by
      rw [first, second, moves, Option.map_map, Option.map_map]
      exact Option.map_congr fun move moved => perform_renamed sole (turn_registers (next_turn moved) (keeps _ running))
    -- threads are made and waited for by the system, without a move
    cases rests : focus.rests with
    | false => exact own (advance_next running rests) (advance_next there ((rests_renamed focus).trans rests))
    | true =>
      cases focus with
      | run code =>
        cases code with
        | fork count body next =>
          simp [advance, running, Thread.renamed, Focus.renamed, Code.renamed, System.renamed, List.map_set, Thread.ofCode,
            Function.comp_def]
        | pause => exact own (by simp only [advance, running]; rfl) (by simp only [advance, there]; rfl)
        | _ => cases rests
      | join names next =>
        simp only [advance, running, there, Thread.renamed, Focus.renamed, Option.bind_eq_bind, Option.bind_some, endings_renamed]
        cases system.endings names with
        | none => rfl
        | some endings => simp [System.renamed, List.map_set, Thread.renamed, Focus.renamed, Reply.renamed, Function.comp_def]
      | _ => cases rests

theorem elapse_renamed (passed : Nat) : (system.renamed exchange).elapse passed = (system.elapse passed).renamed exchange := by
  simp only [elapse, System.renamed, List.map_map, System.mk.injEq, true_and]
  refine List.map_congr_left fun thread _ => ?_
  obtain ⟨focus, frames⟩ := thread
  cases focus with
  | run code => cases code <;> rfl
  | _ => rfl

end System

def Item.keepsTo (home : ScopeId) : Item C → Bool
  | called op => op.keepsTo home
  | _ => true

namespace System
variable {before after system : System C} {program : C.Label → Code C} {memory : C.Memory} {code : Code C}

theorem kept_advance (moved : before.advance me = some after) (kept : ∀ item ∈ after.world.chronicle, item.keepsTo home = true) :
    ∀ thread, before.threads[me]? = some thread → thread.focus.keepsTo home = true := by
  rintro ⟨focus, frames⟩ running
  cases focus with
  | run code => cases code with
    | call op next =>
      obtain ⟨move, turn, rfl⟩ := advance_turn running rfl moved
      have there : Item.called op ∈ (before.perform me move).world.chronicle := by
        simp only [perform, record_chronicle]
        refine List.mem_append_right _ ?_
        cases turn with
        | goOn alone | ends alone | panics alone => cases alone
        | _ => exact List.mem_cons_self
      exact kept _ there
    | _ => rfl
  | _ => rfl

theorem advance_sole (sole : before.world.Sole home) (moved : before.advance me = some after)
    (keeps : ∀ thread, before.threads[me]? = some thread → thread.focus.keepsTo home = true) : after.world.Sole home := by
  obtain ⟨thread, running, ⟨move, turn, rfl⟩ | ⟨_, _, _, _, _, _, rfl⟩ | ⟨_, _, _, _, _, rfl⟩⟩ := advance_cases moved
  · exact apply_sole sole (turn_registers turn (keeps thread running))
  · exact sole
  · exact sole

theorem initial_renamed : (initial program memory code).renamed exchange =
    initial (fun label => (program (exchange.label label)).renamed exchange) (exchange.memory memory) (code.renamed exchange) := rfl

theorem initial_sole : (initial program memory code).world.Sole home := by
  intro registry cell found
  simp [initial, World.initial] at found

theorem runs_renamed (path : Runs (initial program memory code) system)
    (kept : ∀ item ∈ system.world.chronicle, item.keepsTo home = true) :
    system.world.Sole home ∧
      Abreast (initial program memory code) ((initial program memory code).renamed exchange) system (system.renamed exchange) := by
  generalize origin : initial program memory code = start at path ⊢
  induction path with
  | refl => cases origin; exact ⟨initial_sole, .refl⟩
  | @step middle last path next ih =>
    have before : ∀ item ∈ middle.world.chronicle, item.keepsTo home = true := fun item member =>
      kept item ((runs_chronicle (.step (.refl _) next)).subset member)
    obtain ⟨sole, beside⟩ := ih before
    cases next with
    | time passed => exact ⟨sole, by rw [← elapse_renamed]; exact .time passed beside⟩
    | thread me moved =>
      have keeps := kept_advance moved kept
      exact ⟨advance_sole sole moved keeps, .thread me beside moved (by rw [advance_renamed sole keeps, moved]; rfl)⟩

-- Exchange a kind that has one place in a registry for one that has a place per id, or any kind for any other. What
-- a program with all its factories, hooks and listeners does under one identity is then done under the renamed
-- one: the same threads make the same steps in the same order, and every reply, fault and state, every call of a
-- hook, every event and record is the same but for the kind. At no moment can a thread go on in the one and
-- not in the other, or go on otherwise.
theorem kinds_interchangeable (path : Runs (initial program memory code) system)
    (kept : ∀ item ∈ system.world.chronicle, item.keepsTo home = true) :
    Abreast (initial program memory code)
      (initial (fun label => (program (exchange.label label)).renamed exchange) (exchange.memory memory) (code.renamed exchange))
      system (system.renamed exchange) ∧
    ∀ me, (∀ thread, system.threads[me]? = some thread → thread.focus.keepsTo home = true) →
      (system.renamed exchange).advance me = (system.advance me).map (System.renamed exchange) := by
  obtain ⟨sole, beside⟩ := runs_renamed path kept
  exact ⟨initial_renamed ▸ beside, fun me keeps => advance_renamed sole keeps⟩

def revives (id : ScopeId) : Event → Code ⟨Unit, Unit, Unit, Unit⟩
  | .ended _ _ => .call (.begin 0 id) fun _ => .done
  | _ => .done

def reviving (id : ScopeId) : Code ⟨Unit, Unit, Unit, Unit⟩ :=
  .call (.establish {}) fun _ => .listen 0 (revives id) <| .call (.begin 0 id) fun _ => .call (.finish 0 id) fun _ =>
  .call (.begin 0 id) fun _ => .done

def revived (kind : Kind) : System ⟨Unit, Unit, Unit, Unit⟩ := initial (fun _ => .done) () (reviving ⟨kind, "a"⟩)

def sessionForGlobal : Exchange ⟨Unit, Unit, Unit, Unit⟩ := .plain .global .session

theorem revived_renamed : (reviving ⟨.global, "a"⟩).renamed sessionForGlobal = reviving ⟨.session, "a"⟩ := by
  have heard : (fun event => (revives ⟨.global, "a"⟩ (event.renamed sessionForGlobal.swap)).renamed sessionForGlobal) =
      revives ⟨.session, "a"⟩ := by
    funext event
    cases event <;> rfl
  simp only [reviving, Code.renamed, heard]
  rfl

theorem revived_alike :
    Abreast (revived .global) (revived .session) (run 42 (revived .global)) ((run 42 (revived .global)).renamed sessionForGlobal) ∧
    (run 42 (revived .global)).world.registered 0 ⟨.global, "a"⟩ = some ⟨0, ⟨.global, "a"⟩, 1⟩ ∧
    (run 42 (revived .session)).world.registered 0 ⟨.session, "a"⟩ = some ⟨0, ⟨.session, "a"⟩, 1⟩ := by
  have kept : ∀ item ∈ (run 42 (revived .global)).world.chronicle, item.keepsTo ⟨.global, "a"⟩ = true := by decide +kernel
  have alike := (@kinds_interchangeable _ sessionForGlobal ⟨.global, "a"⟩ _ _ _ _ (run_runs 42 (revived .global)) kept).1
  rw [revived_renamed] at alike
  exact ⟨alike, by decide +kernel, by decide +kernel⟩

-- What is current where nothing is bound does depend on the kind.
example : (run 12 (revived .global)).world.current 0 .empty .global = some ⟨0, ⟨.global, "a"⟩, 0⟩ ∧
    (run 12 (revived .session)).world.current 0 .empty .session = none := by decide +kernel

end System
end Lifespan
