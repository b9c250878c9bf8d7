import Mathlib.Data.List.Basic
import Lifespan.Proofs.Tuning

-- The settings of a registry decide what is logged, and nothing else. Two systems that differ in them only go the
-- same way step by step, as long as nobody asks for the settings.
namespace Lifespan
variable {C : Client} {settings : Settings} {world : World C} {me : ThreadId} {frames : List (Frame C)}

def World.Loud (world : World C) : Prop :=
  ∀ (registry : RegistryRef) (cell : Registry C), world.registries[registry]? = some cell → cell.settings.warnOnLeftoverScopes = true

theorem ofEvent_under (one two : Settings) (event : Event) :
    (Record.ofEvent one event).under two = some (Record.ofEvent two event) := by
  cases event with
  | ended scope failures => cases failures <;> rfl
  | _ => rfl

@[simp] theorem tuned_back (reply : Reply C) : (Focus.back reply).tuned settings = .back reply := rfl

theorem tuned_admitted (point : Point C) : (point.tuned settings).admitted = point.admitted.tuned settings := by
  cases point <;> rfl

theorem tuned_refused (point : Point C) (fault : Fault) :
    (point.tuned settings).refused fault = (point.refused fault).tuned settings := by
  cases point with
  | shared => rfl
  | sight place => cases place <;> rfl

@[simp] theorem tuned_scopeOf (point : Point C) : (point.tuned settings).scope = point.scope := by
  cases point with
  | shared => rfl
  | sight place => cases place <;> rfl

@[simp] theorem tuned_exit (exit : Exit C) : exit.focus.tuned settings = exit.focus := by cases exit <;> rfl

@[simp] theorem tuned_sight (sight : Sight C) : (sight.tuned settings).scope = sight.scope := by cases sight <;> rfl

@[simp] theorem tuned_request (job : Job C) : (job.tuned settings).request = job.request := rfl

@[simp] theorem tuned_sighted (cell : Scope C) (request : Request) :
    Move.sighted (cell.tuned settings) request = Move.sighted cell request := rfl

theorem silent_tuned (focus : Focus C) (frames : List (Frame C)) :
    (Move.silent focus frames).tuned settings = .silent (focus.tuned settings) (frames.map (Frame.tuned settings)) := rfl

theorem changing_tuned (effect : Effect C) (focus : Focus C) (frames : List (Frame C)) :
    (Move.changing effect focus frames).tuned settings =
      .changing (effect.tuned settings) (focus.tuned settings) (frames.map (Frame.tuned settings)) := rfl

theorem callHook_tuned (call : HookCall) (frames : List (Frame C)) : Move.callHook (world.tuned settings) call (frames.map (Frame.tuned settings)) =
    (Move.callHook world call frames).map (Move.tuned settings) := by
  simp only [Move.callHook, tuned_instance, Option.map_map]
  congr 1
  funext made
  simp [Move.tuned, Effect.tuned, Item.under, Focus.tuned, Instance.tuned, tuned_hooks]

theorem check_tuned (point : Point C) : Move.check (world.tuned settings) (point.tuned settings) (frames.map (Frame.tuned settings)) =
    (Move.check world point frames).map (Move.tuned settings) := by
  simp only [Move.check, tuned_scope, tuned_scopeOf, Option.map_map]
  congr 1
  funext cell
  simp only [Function.comp, Scope.tuned]
  cases cell.state with
  | active => rw [silent_tuned, tuned_admitted]
  | destructionPending => rfl
  | created | destroyed => rw [silent_tuned, tuned_refused]

theorem vouch_tuned (point : Point C) :
    Move.vouch (world.tuned settings) me (point.tuned settings) (frames.map (Frame.tuned settings)) =
      (Move.vouch world me point frames).map (Move.tuned settings) := by
  simp only [Move.vouch, tuned_scope, tuned_scopeOf, Option.map_map]
  congr 1
  funext cell
  simp only [Function.comp, Scope.tuned, tuned_admitted, tuned_refused]
  rw [apply_ite (Move.tuned settings)]
  rfl

theorem look_tuned (sight : Sight C) : Move.look (world.tuned settings) (sight.tuned settings) (frames.map (Frame.tuned settings)) =
    (Move.look world sight frames).map (Move.tuned settings) := by
  simp only [Move.look, tuned_scope, tuned_sight, Option.map_map]
  congr 1
  funext cell
  cases sight with
  | first job | inside job =>
    simp only [Function.comp, Sight.tuned, tuned_request, tuned_sighted]
    cases Move.sighted cell job.request <;> rfl
  | peek request =>
    simp only [Function.comp, Sight.tuned, tuned_sighted]
    rcases Move.sighted cell request with _ | reply
    · rfl
    · cases reply <;> rfl
  | holds => rfl

theorem share_tuned (job : Job C) : Move.share (world.tuned settings) (job.tuned settings) (frames.map (Frame.tuned settings)) =
    (Move.share world job frames).map (Move.tuned settings) := by
  simp only [Move.share, tuned_scope, tuned_request, Option.bind_eq_bind, Option.bind_map]
  cases world.scope? job.request.scope with
  | none => rfl
  | some cell =>
    simp only [Option.bind_some, Function.comp, Scope.tuned]
    rw [apply_ite (Option.map (Move.tuned settings))]
    rfl

theorem queue_tuned (job : Job C) : Move.queue (world.tuned settings) me (job.tuned settings) (frames.map (Frame.tuned settings)) =
    (Move.queue world me job frames).map (Move.tuned settings) := by
  simp only [Move.queue, tuned_scope, tuned_request, Option.map_map]
  congr 1
  funext cell
  simp only [Function.comp, Scope.tuned]
  rw [apply_ite (Move.tuned settings)]
  rfl

theorem turn_tuned (job : Job C) (gate : GateRef) :
    Move.turn (world.tuned settings) (job.tuned settings) gate (frames.map (Frame.tuned settings)) =
      (Move.turn world job gate frames).map (Move.tuned settings) := by
  simp only [Move.turn, tuned_scope, tuned_request, Option.bind_eq_bind, Option.bind_map]
  cases world.scope? job.request.scope with
  | none => rfl
  | some cell =>
    simp only [Option.bind_some, Function.comp, Scope.tuned]
    rcases cell.turns[gate]? with _ | _ | _ <;> rfl

theorem leave_tuned (scope : ScopeRef) (hold : Hold) (exit : Exit C) :
    Move.leave scope hold exit (frames.map (Frame.tuned settings)) = (Move.leave scope hold exit frames).tuned settings := by
  cases hold <;> simp only [Move.leave, changing_tuned, tuned_exit] <;> rfl

theorem find_tuned (registry : RegistryRef) (id : ScopeId) :
    Move.find (world.tuned settings) registry id (frames.map (Frame.tuned settings)) =
      (Move.find world registry id frames).tuned settings := by
  simp only [Move.find, tuned_registered]
  cases world.registered registry id <;> rfl

theorem retire_tuned (scope : ScopeRef) : Move.retire (world.tuned settings) scope (frames.map (Frame.tuned settings)) =
    (Move.retire world scope frames).map (Move.tuned settings) := by
  simp only [Move.retire, tuned_scope, Option.map_map]
  congr 1
  funext cell
  simp only [Function.comp]
  rw [apply_ite (Move.tuned settings)]
  rfl

theorem exclude_tuned (scope : ScopeRef) : Move.exclude (world.tuned settings) scope (frames.map (Frame.tuned settings)) =
    (Move.exclude world scope frames).map (Move.tuned settings) := by
  simp only [Move.exclude, tuned_scope, Option.bind_eq_bind, Option.bind_map]
  cases world.scope? scope with
  | none => rfl
  | some cell =>
    simp only [Option.bind_some, Function.comp, Scope.tuned]
    rw [apply_ite (Option.map (Move.tuned settings))]
    rfl

theorem empty_tuned (scope : ScopeRef) : Move.empty (world.tuned settings) scope (frames.map (Frame.tuned settings)) =
    (Move.empty world scope frames).map (Move.tuned settings) := by
  simp only [Move.empty, tuned_scope, Option.map_map]
  rfl

theorem tear_tuned (teardown : Teardown) : Move.tear (world.tuned settings) teardown (frames.map (Frame.tuned settings)) =
    (Move.tear world teardown frames).map (Move.tuned settings) := by
  unfold Move.tear
  split
  · rfl
  · rfl
  · exact callHook_tuned _ (.hooked _ _ :: frames)
  · exact callHook_tuned _ (.hooked _ _ :: frames)

theorem hooked_tuned (teardown : Teardown) (key : String) (exit : Exit C) :
    Move.hooked teardown key exit (frames.map (Frame.tuned settings)) = (Move.hooked teardown key exit frames).tuned settings := by
  unfold Move.hooked
  cases teardown.phase <;>
    simp [Move.tuned, Effect.tuned, Focus.tuned, Frame.tuned, Item.under, Record.under, List.filterMap_map, Function.comp_def]

theorem emit_tuned (registry : RegistryRef) (event : Event) :
    Move.emit (world.tuned settings) registry event (frames.map (Frame.tuned settings)) =
      (Move.emit world registry event frames).map (Move.tuned settings) := by
  simp only [Move.emit, tuned_registry, Option.map_map]
  congr 1
  funext cell
  simp [Move.tuned, Effect.tuned, Item.under, ofEvent_under, Registry.tuned, Focus.tuned]

theorem deliver_tuned (registry : RegistryRef) (event : Event) :
    Move.deliver (world.tuned settings) registry event (frames.map (Frame.tuned settings)) =
      (Move.deliver world registry event frames).map (Move.tuned settings) := by
  simp only [Move.deliver, tuned_registry, Option.map_map]
  congr 1
  funext cell
  simp only [Function.comp, Registry.tuned]
  cases cell.listener <;> rfl

theorem gather_tuned (loud : world.Loud) (registry : RegistryRef) :
    Move.gather (world.tuned settings) registry (frames.map (Frame.tuned settings)) =
      (Move.gather world registry frames).map (Move.tuned settings) := by
  simp only [Move.gather, tuned_registry, tuned_leftovers, Option.map_map]
  refine Option.map_congr fun cell found => ?_
  simp only [Function.comp, Registry.tuned, if_pos (loud registry cell found), Move.tuned]
  by_cases warns : settings.warnOnLeftoverScopes = true <;>
    simp [Effect.tuned, Focus.tuned, Frame.tuned, Item.under, Record.under, List.filterMap_map, Function.comp_def, warns]

theorem begin_tuned (registry : RegistryRef) (id : ScopeId) :
    Move.begin (world.tuned settings) registry id (frames.map (Frame.tuned settings)) =
      (Move.begin world registry id frames).map (Move.tuned settings) := by
  simp only [Move.begin, tuned_registry, tuned_isAlive, tuned_nextScope, Option.map_map]
  congr 1
  funext cell
  simp only [Function.comp]
  rw [apply_ite (Move.tuned settings)]
  rfl

theorem ended_tuned (registry : RegistryRef) (scope : ScopeRef) (reply : Reply C) :
    Move.ended registry scope reply (frames.map (Frame.tuned settings)) = (Move.ended registry scope reply frames).tuned settings := by
  unfold Move.ended
  split <;> rfl

theorem released_tuned (guard : Guard) (reply : Reply C) :
    Move.released guard reply (frames.map (Frame.tuned settings)) = (Move.released guard reply frames).tuned settings := by
  unfold Move.released
  split <;> rfl

theorem dropped_tuned (reply : Reply C) :
    Move.dropped reply (frames.map (Frame.tuned settings)) = (Move.dropped reply frames).tuned settings := by
  unfold Move.dropped
  split <;> rfl

theorem sweep_tuned (registry : RegistryRef) (remaining : List ScopeId) (failures : List Failure) :
    Move.sweep registry remaining failures (frames.map (Frame.tuned settings)) =
      (Move.sweep registry remaining failures frames).tuned settings := by
  cases remaining <;> rfl

theorem back_tuned (reply : Reply C) : Move.back (world.tuned settings) reply (frames.map (Frame.tuned settings)) =
    (Move.back world reply frames).map (Move.tuned settings) := by
  cases frames with
  | nil => rfl
  | cons frame rest =>
    cases frame with
    | created job gate object => exact callHook_tuned _ (.welcomed job gate object :: rest)
    | hooked teardown key => exact congrArg some (hooked_tuned teardown key (.back reply))
    | torn scope => cases reply <;> rfl
    | ended registry scope => exact congrArg some (ended_tuned registry scope reply)
    | sweeping registry remaining failures => exact congrArg some (sweep_tuned registry remaining _)
    | dropped => exact congrArg some (dropped_tuned reply)
    | released guard => exact congrArg some (released_tuned guard reply)
    | invoked hook => cases hook <;> cases reply <;> rfl
    | _ => rfl

theorem unwind_tuned (panic : Panic) : Move.unwind panic (frames.map (Frame.tuned settings)) =
    (Move.unwind panic frames).map (Move.tuned settings) := by
  cases frames with
  | nil => rfl
  | cons frame rest =>
    cases frame with
    | hooked teardown key => exact congrArg some (hooked_tuned teardown key (.unwind panic))
    | _ => rfl

theorem call_tuned {op : Op C} (other : ∀ registry, op ≠ .settings registry) :
    Move.call (world.tuned settings) (op.tuned settings) (frames.map (Frame.tuned settings)) =
      (Move.call world op frames).map (Move.tuned settings) := by
  have asks : (world.tuned settings).read op = world.read op := read_tuned other
  cases op with
  | establish => simp [Op.tuned, Move.call, World.tuned, changing_tuned, Effect.tuned]
  | begin registry id => exact begin_tuned registry id
  | drop registry =>
    simp only [Op.tuned, Move.call, tuned_hasLiving]
    rw [apply_ite (Option.map (Move.tuned settings))]
    rfl
  | setAttribute scope name value =>
    simp only [Op.tuned, Move.call, tuned_scope, Option.map_map]
    congr 1
    funext cell
    simp only [Function.comp]
    rw [apply_ite (Move.tuned settings)]
    rfl
  | removeAttribute scope name =>
    simp only [Op.tuned, Move.call, tuned_scope, Option.map_map]
    rfl
  | invoke hook => exact callHook_tuned hook (.invoked hook :: frames)
  | silence | finish | endGuard | dropGuard | shutdown | peek | holds | destroyAll => rfl
  | _ =>
    simp only [Op.tuned, Move.call, asks, Option.map_map]
    rfl

def Focus.asksSettings : Focus C → Bool
  | .run (.call (.settings _) _) => true
  | _ => false

theorem tuned_asks (focus : Focus C) : (focus.tuned settings).asksSettings = focus.asksSettings := by
  cases focus with
  | run code =>
    cases code with
    | call op => cases op <;> rfl
    | _ => rfl
  | _ => rfl

theorem run_tuned (code : Code C) (quiet : (Focus.run code).asksSettings = false) :
    Move.run (world.tuned settings) (code.tuned settings) (frames.map (Frame.tuned settings)) =
      (Move.run world code frames).map (Move.tuned settings) := by
  cases code with
  | built datum hooks =>
    cases frames with
    | nil => rfl
    | cons frame rest =>
      cases frame with
      | factory job gate =>
        simp [Code.tuned, Move.run, Frame.tuned, Move.keep, Move.tuned, Effect.tuned, Instance.tuned, Item.under, Focus.tuned]
      | _ => rfl
  | await ready next | pause time next =>
    simp only [Code.tuned, Move.run]
    rw [apply_ite (Option.map (Move.tuned settings))]
    rfl
  | awaitState scope state next =>
    simp only [Code.tuned, Move.run, tuned_scope, Option.bind_eq_bind, Option.bind_map]
    cases world.scope? scope with
    | none => rfl
    | some cell =>
      simp only [Option.bind_some, Function.comp]
      rw [apply_ite (Option.map (Move.tuned settings))]
      rfl
  | call op next =>
    simp only [Code.tuned, Move.run]
    have called : Move.call (world.tuned settings) (op.tuned settings) ((.user next :: frames).map (Frame.tuned settings)) = _ :=
      call_tuned fun registry same => by cases same; cases quiet
    refine (congrArg (Option.map _) called).trans ?_
    rw [Option.map_map, Option.map_map]
    rfl
  | make => simp [Code.tuned, Move.run, changing_tuned, World.tuned, Effect.tuned, Instance.tuned, Focus.tuned]
  | _ => rfl

theorem next_tuned {thread : Thread C} (loud : world.Loud) (quiet : thread.focus.asksSettings = false) :
    (thread.tuned settings).next (world.tuned settings) me = (thread.next world me).map (Move.tuned settings) := by
  obtain ⟨focus, frames⟩ := thread
  cases focus with
  | run code => exact run_tuned code quiet
  | back reply => exact back_tuned reply
  | unwind panic => exact unwind_tuned panic
  | emit registry event => exact emit_tuned registry event
  | deliver registry event => exact deliver_tuned registry event
  | check point => exact check_tuned point
  | vouch point => exact vouch_tuned point
  | look sight => exact look_tuned sight
  | share job => exact share_tuned job
  | queue job => exact queue_tuned job
  | turn job gate => exact turn_tuned job gate
  | leave scope hold exit => exact congrArg some (leave_tuned scope hold exit)
  | find registry id => exact congrArg some (find_tuned registry id)
  | retire scope => exact retire_tuned scope
  | exclude scope => exact exclude_tuned scope
  | empty scope => exact empty_tuned scope
  | tear teardown => exact tear_tuned teardown
  | reopen scope exit => exact congrArg some (by simp only [changing_tuned, tuned_exit]; rfl)
  | gather registry => exact gather_tuned loud registry
  | _ => rfl

mutual
theorem Code.tuned_again {one two : Settings} (code : Code C) : (code.tuned one).tuned two = code.tuned two := by
  cases code with
  | done | fail | panic | jump => rfl
  | built datum hooks => exact congrArg (Code.built datum) hooks.tuned_again
  | note note next => exact congrArg (Code.note note) next.tuned_again
  | access update next => exact congrArg (Code.access update) (funext fun memory => (next memory).tuned_again)
  | await ready next => exact congrArg (Code.await ready) next.tuned_again
  | awaitState scope state next => exact congrArg (Code.awaitState scope state) (funext fun reply => (next reply).tuned_again)
  | pause time next => exact congrArg (Code.pause time) next.tuned_again
  | call op next =>
    have same : (op.tuned one).tuned two = op.tuned two := by cases op <;> rfl
    exact congrArg₂ Code.call same (funext fun reply => (next reply).tuned_again)
  | listen registry listener next =>
    exact congrArg₂ (Code.listen registry) (funext fun event => (listener event).tuned_again) next.tuned_again
  | make type datum hooks next =>
    exact congrArg₂ (Code.make type datum) hooks.tuned_again (funext fun reply => (next reply).tuned_again)
  | resolve request factory next =>
    exact congrArg₂ (Code.resolve request) (funext fun scope => (factory scope).tuned_again)
      (funext fun reply => (next reply).tuned_again)
  | fork count body next =>
    exact congrArg₂ (Code.fork count) (funext fun index => (body index).tuned_again)
      (funext fun reply => (next reply).tuned_again)

theorem Hooks.tuned_again {one two : Settings} (hooks : Hooks (Code C)) : (hooks.tuned one).tuned two = hooks.tuned two := by
  obtain ⟨after, before, destroy⟩ := hooks
  simp only [Hooks.tuned, Hooks.mk.injEq]
  exact ⟨funext fun scope => (after scope).tuned_again, funext fun scope => (before scope).tuned_again, destroy.tuned_again⟩
end

theorem Job.tuned_again {one two : Settings} (job : Job C) : (job.tuned one).tuned two = job.tuned two := by
  simp only [Job.tuned, Code.tuned_again]

theorem Focus.tuned_again {one two : Settings} (focus : Focus C) : (focus.tuned one).tuned two = focus.tuned two := by
  cases focus with
  | run code => simp only [Focus.tuned, Code.tuned_again]
  | check point | vouch point =>
    cases point with
    | shared job => simp only [Focus.tuned, Point.tuned, Job.tuned_again]
    | sight sight => cases sight <;> simp only [Focus.tuned, Point.tuned, Sight.tuned, Job.tuned_again]
  | look sight => cases sight <;> simp only [Focus.tuned, Sight.tuned, Job.tuned_again]
  | share | queue | turn | start => simp only [Focus.tuned, Job.tuned_again]
  | join threads next => simp only [Focus.tuned, Code.tuned_again]
  | _ => rfl

theorem Frame.tuned_again {one two : Settings} (frame : Frame C) : (frame.tuned one).tuned two = frame.tuned two := by
  cases frame with
  | user | factory | created | welcomed => simp only [Frame.tuned, Code.tuned_again, Job.tuned_again]
  | _ => rfl

theorem Instance.tuned_again {one two : Settings} (made : Instance C) : (made.tuned one).tuned two = made.tuned two := by
  simp only [Instance.tuned, Hooks.tuned_again]

theorem Scope.tuned_again {one two : Settings} (cell : Scope C) : (cell.tuned one).tuned two = cell.tuned two := by
  simp only [Scope.tuned, List.map_map, Function.comp_def, Instance.tuned_again]

theorem Record.under_again {loud : Settings} (warns : loud.warnOnLeftoverScopes = true) (record : Record) :
    (record.under loud).bind (Record.under settings) = record.under settings := by
  cases record <;> simp [Record.under, warns]

theorem Item.under_again {loud : Settings} (warns : loud.warnOnLeftoverScopes = true) (item : Item C) :
    (item.under loud).bind (Item.under settings) = item.under settings := by
  cases item with
  | called op => cases op <;> rfl
  | logged record =>
    have again : (record.under loud).bind (Record.under settings) = record.under settings := Record.under_again warns record
    simp only [Item.under, ← again]
    cases record.under loud <;> rfl
  | _ => rfl

theorem tuned_again {loud : Settings} (warns : loud.warnOnLeftoverScopes = true) (system : System C) :
    (system.tuned loud).tuned settings = system.tuned settings := by
  obtain ⟨⟨program, memory, registries, scopes, loose, history⟩, threads⟩ := system
  simp only [System.tuned, World.tuned, System.mk.injEq, World.mk.injEq, true_and]
  refine ⟨⟨?_, ?_, ?_, ?_, ?_⟩, ?_⟩
  · exact funext fun label => Code.tuned_again _
  · simp [Registry.tuned, Function.comp_def, Code.tuned_again]
  · refine Table.same ?_
    simp [Table.mapValues, Function.comp_def, Scope.tuned_again]
  · simp [Function.comp_def, Instance.tuned_again]
  · rw [List.filterMap_filterMap]
    refine List.filterMap_congr fun one _ => ?_
    have again : (one.2.under loud).bind (Item.under settings) = one.2.under settings := Item.under_again warns one.2
    rw [← again, Option.bind_map, Option.map_bind]
    rfl
  · simp [Thread.tuned, Function.comp_def, Focus.tuned_again, Frame.tuned_again]

theorem tuned_loud {loud : Settings} (warns : loud.warnOnLeftoverScopes = true) (world : World C) : (world.tuned loud).Loud := by
  intro registry cell found
  rw [tuned_registry] at found
  obtain ⟨old, _, rfl⟩ := Option.map_eq_some_iff.mp found
  exact warns

namespace System
variable {system before after start : System C}

theorem record_tuned (items : List (Item C)) :
    record (world.tuned settings) me (items.filterMap (Item.under settings)) = (record world me items).tuned settings := by
  simp only [record, World.tuned, List.filterMap_append, List.filterMap_reverse, List.map_filterMap, List.filterMap_map]
  rfl

theorem perform_tuned (move : Move C) :
    (system.tuned settings).perform me (move.tuned settings) = (system.perform me move).tuned settings := by
  simp only [perform, System.tuned, List.map_set, ← record_tuned, apply_tuned]
  rfl

theorem endings_tuned (names : List ThreadId) : (system.tuned settings).endings names = system.endings names := by
  unfold endings
  congr 1
  funext name
  simp only [System.tuned, List.getElem?_map, Option.bind_eq_bind, Option.bind_map]
  cases system.threads[name]? with
  | none => rfl
  | some thread =>
    have same : (thread.tuned settings).ending? = thread.ending? := by
      obtain ⟨focus, frames⟩ := thread
      cases frames with
      | nil => cases focus <;> rfl
      | cons => cases focus with
        | back reply => cases reply <;> rfl
        | _ => rfl
    simp only [Option.bind_some, Function.comp, same]

theorem rests_tuned (focus : Focus C) : (focus.tuned settings).rests = focus.rests := by
  cases focus with
  | run code => cases code <;> rfl
  | _ => rfl

-- A step is the same step however the registries are tuned, if only their settings are not asked for.
theorem advance_tuned (loud : system.world.Loud)
    (quiet : ∀ thread, system.threads[me]? = some thread → thread.focus.asksSettings = false) :
    (system.tuned settings).advance me = (system.advance me).map (System.tuned settings) := by
  cases running : system.threads[me]? with
  | none => simp [advance, System.tuned, running]
  | some thread =>
    obtain ⟨focus, frames⟩ := thread
    have there : (system.tuned settings).threads[me]? = some (Thread.tuned settings ⟨focus, frames⟩) := by
      simp [System.tuned, running]
    have moves : (Thread.tuned settings ⟨focus, frames⟩).next (system.world.tuned settings) me = _ :=
      next_tuned loud (quiet _ running)
    have own (first : system.advance me = ((⟨focus, frames⟩ : Thread C).next system.world me).map (system.perform me))
        (second : (system.tuned settings).advance me =
          ((Thread.tuned settings ⟨focus, frames⟩).next (system.world.tuned settings) me).map ((system.tuned settings).perform me)) :
        (system.tuned settings).advance me = (system.advance me).map (System.tuned settings) := by
      rw [first, second, moves, Option.map_map, Option.map_map]
      exact Option.map_congr fun move _ => perform_tuned move
    cases rests : focus.rests with
    | false => exact own (advance_next running rests) (advance_next there ((rests_tuned focus).trans rests))
    | true =>
      cases focus with
      | run code =>
        cases code with
        | fork count body next =>
          simp [advance, running, Thread.tuned, Focus.tuned, Code.tuned, System.tuned, List.map_set, Thread.ofCode, Function.comp_def]
        | pause => exact own (by simp only [advance, running]; rfl) (by simp only [advance, there]; rfl)
        | _ => cases rests
      | join names next =>
        simp only [advance, running, there, Thread.tuned, Focus.tuned, Option.bind_eq_bind, Option.bind_some, endings_tuned]
        cases system.endings names with
        | none => rfl
        | some endings => simp [System.tuned, List.map_set, Thread.tuned, Focus.tuned]
      | _ => cases rests

theorem elapse_tuned (passed : Nat) : (system.tuned settings).elapse passed = (system.elapse passed).tuned settings := by
  simp only [elapse, System.tuned, List.map_map, System.mk.injEq, true_and]
  refine List.map_congr_left fun thread _ => ?_
  obtain ⟨focus, frames⟩ := thread
  cases focus with
  | run code => cases code <;> rfl
  | _ => rfl

end System

def Item.asksSettings : Item C → Bool
  | called (.settings _) => true
  | _ => false

def Item.isFirm : Item C → Bool
  | called (.establish _) | logged (.lifecycle _ _) | logged (.stillAlive _) => false
  | _ => true

-- What is firm is kept as it is, and nothing else becomes firm.
theorem under_firm (item : Item C) : (item.under settings).filter Item.isFirm = Option.guard Item.isFirm item := by
  cases item with
  | called op => cases op <;> rfl
  | logged record =>
    cases record with
    | stillAlive scope =>
      simp only [Item.under, Record.under]
      split <;> rfl
    | _ => rfl
  | _ => rfl

theorem tuned_chronicle : (world.tuned settings).chronicle = world.chronicle.filterMap (Item.under settings) := by
  simp only [World.chronicle, World.tuned, List.map_filterMap, ← List.filterMap_reverse, List.filterMap_map]
  congr 1
  funext one
  simp only [Function.comp]
  cases one.2.under settings <;> rfl

theorem chronicle_firm : (world.tuned settings).chronicle.filter Item.isFirm = world.chronicle.filter Item.isFirm := by
  rw [tuned_chronicle, List.filter_filterMap, ← List.filterMap_eq_filter]
  exact congrArg (List.filterMap · world.chronicle) (funext under_firm)

namespace System
variable {before after system start origin : System C} {one two : Settings} {program : C.Label → Code C} {memory : C.Memory}
  {code : Code C}

theorem quiet_advance (moved : before.advance me = some after) (quiet : ∀ item ∈ after.world.chronicle, item.asksSettings = false) :
    ∀ thread, before.threads[me]? = some thread → thread.focus.asksSettings = false := by
  rintro ⟨focus, frames⟩ running
  cases asks : focus.asksSettings with
  | false => rfl
  | true =>
    obtain ⟨registry, next, rfl⟩ : ∃ registry next, focus = .run (.call (.settings registry) next) := by
      unfold Focus.asksSettings at asks
      split at asks
      · exact ⟨_, _, rfl⟩
      · cases asks
    obtain ⟨move, turn, rfl⟩ := advance_turn running rfl moved
    have there : Item.called (.settings registry) ∈ (before.perform me move).world.chronicle := by
      simp only [perform, record_chronicle]
      refine List.mem_append_right _ ?_
      cases turn with
      | goOn alone | ends alone | panics alone => cases alone
      | answers => exact List.mem_singleton_self _
      | calls starts => cases starts
    cases quiet _ there

inductive Abreast (first second : System C) : System C → System C → Prop
  | refl : Abreast first second first second
  | thread {before after beside aside : System C} (me : ThreadId) (path : Abreast first second before beside)
      (moved : before.advance me = some after) (moves : beside.advance me = some aside) : Abreast first second after aside
  | time {before beside : System C} (passed : Nat) (path : Abreast first second before beside) :
      Abreast first second (before.elapse passed) (beside.elapse passed)

def loudest : Settings := ⟨true, true⟩

theorem tuned_quiet (quiet : ∀ thread, (system.tuned one).threads[me]? = some thread → thread.focus.asksSettings = false) :
    ∀ thread, (system.tuned two).threads[me]? = some thread → thread.focus.asksSettings = false := by
  intro thread running
  simp only [System.tuned, List.getElem?_map, Option.map_eq_some_iff] at running quiet
  obtain ⟨own, running, rfl⟩ := running
  exact (tuned_asks own.focus).trans ((tuned_asks own.focus).symm.trans (quiet _ ⟨own, running, rfl⟩))

theorem tuned_advance (quiet : ∀ thread, (system.tuned two).threads[me]? = some thread → thread.focus.asksSettings = false) :
    (system.tuned one).advance me = ((system.tuned loudest).advance me).map (System.tuned one) := by
  have again : (system.tuned loudest).tuned one = system.tuned one := tuned_again rfl system
  rw [← again]
  exact advance_tuned (tuned_loud rfl system.world) (tuned_quiet quiet)

theorem runs_abreast (path : Runs origin system) (tuned : origin = start.tuned one)
    (quiet : ∀ item ∈ system.world.chronicle, item.asksSettings = false) :
    ∃ core : System C, system = core.tuned one ∧ Abreast origin (start.tuned two) system (core.tuned two) := by
  induction path with
  | refl => exact ⟨start, tuned, .refl⟩
  | @step middle last path next ih =>
    have before : ∀ item ∈ middle.world.chronicle, item.asksSettings = false := fun item member =>
      quiet item ((runs_chronicle (.step (.refl _) next)).subset member)
    obtain ⟨core, rfl, beside⟩ := ih before
    cases next with
    | time passed => exact ⟨core.elapse passed, elapse_tuned passed, by rw [← elapse_tuned]; exact .time passed beside⟩
    | thread me moved =>
      have own := quiet_advance moved quiet
      obtain ⟨ahead, full, rfl⟩ := Option.map_eq_some_iff.mp ((tuned_advance own).symm.trans moved)
      exact ⟨ahead, rfl, .thread me beside moved (by rw [tuned_advance own, full]; rfl)⟩

structure Alike (one two : Settings) (system other : System C) : Prop where
  threads : other.threads = system.threads.map (Thread.tuned two)
  memory : other.world.memory = system.world.memory
  registries : other.world.registries = system.world.registries.map (Registry.tuned two)
  scopes : ∀ scope, other.world.scope? scope = (system.world.scope? scope).map (Scope.tuned two)
  loose : other.world.loose = system.world.loose.map (Instance.tuned two)
  firm : other.world.chronicle.filter Item.isFirm = system.world.chronicle.filter Item.isFirm
  history : ∃ whole : List (ThreadId × Item C),
    system.world.history = whole.filterMap (fun happened => (happened.2.under one).map (Prod.mk happened.1)) ∧
    other.world.history = whole.filterMap (fun happened => (happened.2.under two).map (Prod.mk happened.1))

theorem tuned_alike (core : System C) : Alike one two (core.tuned one) (core.tuned two) where
  threads := by simp [System.tuned, Thread.tuned, Function.comp_def, Focus.tuned_again, Frame.tuned_again]
  memory := rfl
  registries := by simp [System.tuned, World.tuned, Registry.tuned, Function.comp_def, Code.tuned_again]
  scopes scope := by simp [System.tuned, Function.comp_def, Scope.tuned_again]
  loose := by simp [System.tuned, World.tuned, Function.comp_def, Instance.tuned_again]
  firm := chronicle_firm.trans chronicle_firm.symm
  history := ⟨core.world.history, rfl, rfl⟩

-- A program that does not ask for the settings runs the same way whatever the settings of its registries: step
-- by step the same threads can go on, get the same replies, find the same states and stores, and call the same
-- hooks and listeners in the same order. Only events that are no failures are logged louder or less
-- loud, and what is still alive at a shutdown is named or not.
theorem settings_only_logged
    (path : Runs (initial (fun label => (program label).tuned one) memory (code.tuned one)) system)
    (quiet : ∀ item ∈ system.world.chronicle, item.asksSettings = false) :
    ∃ other, Abreast (initial (fun label => (program label).tuned one) memory (code.tuned one))
        (initial (fun label => (program label).tuned two) memory (code.tuned two)) system other ∧
      Alike one two system other ∧
      ∀ me, (∀ thread, system.threads[me]? = some thread → thread.focus.asksSettings = false) →
        (other.advance me).isSome = (system.advance me).isSome := by
  have start : ∀ settings, initial (fun label => (program label).tuned settings) memory (code.tuned settings) =
      (initial program memory code).tuned settings := fun _ => rfl
  rw [start one] at path
  have beside : ∃ core : System C, system = core.tuned one ∧
      Abreast ((initial program memory code).tuned one) ((initial program memory code).tuned two) system (core.tuned two) :=
    runs_abreast path rfl quiet
  obtain ⟨core, rfl, abreast⟩ := beside
  refine ⟨core.tuned two, abreast, tuned_alike core, fun me own => ?_⟩
  have full : ((core.tuned one).advance me).isSome = ((core.tuned loudest).advance me).isSome := by
    rw [tuned_advance own, Option.isSome_map]
  rw [full, tuned_advance own, Option.isSome_map]

def leaving (settings : Settings) : Code ⟨Unit, Unit, Unit, Unit⟩ :=
  .call (.establish settings) fun _ => .call (.begin 0 ⟨.session, "a"⟩) fun _ => .call (.shutdown 0) fun _ => .done

def leavingUnder (settings : Settings) : System ⟨Unit, Unit, Unit, Unit⟩ :=
  initial (fun _ => .done) () (leaving settings)

theorem leaving_tuned (one two : Settings) :
    initial (fun _ => Code.done.tuned two) () ((leaving one).tuned two) = leavingUnder two := by
  simp only [leaving, leavingUnder, Code.tuned, Op.tuned]

def Item.noise? : Item C → Option (Level × String)
  | .logged record => some (record.level, record.message)
  | _ => none

theorem left_aloud :
    (∃ other, Abreast (leavingUnder ⟨false, false⟩) (leavingUnder ⟨true, true⟩) (run 40 (leavingUnder ⟨false, false⟩)) other ∧
      Alike ⟨false, false⟩ ⟨true, true⟩ (run 40 (leavingUnder ⟨false, false⟩)) other) ∧
    (run 40 (leavingUnder ⟨false, false⟩)).world.chronicle.filterMap Item.noise? =
      [(.debug, "scope lifecycle"), (.debug, "scope lifecycle"), (.debug, "scope lifecycle")] ∧
    (run 40 (leavingUnder ⟨true, true⟩)).world.chronicle.filterMap Item.noise? =
      [(.info, "scope lifecycle"), (.warn, "scope still alive at shutdown"), (.info, "scope lifecycle"),
        (.info, "scope lifecycle")] := by
  have quiet : ∀ item ∈ (run 40 (leavingUnder ⟨false, false⟩)).world.chronicle, item.asksSettings = false := by decide +kernel
  have path : Runs (leavingUnder ⟨false, false⟩) (run 40 (leavingUnder ⟨false, false⟩)) := run_runs 40 _
  rw [← leaving_tuned ⟨false, false⟩] at path
  obtain ⟨other, abreast, alike, _⟩ := @settings_only_logged _ _ ⟨false, false⟩ ⟨true, true⟩ _ _ _ path quiet
  rw [leaving_tuned, leaving_tuned] at abreast
  exact ⟨⟨other, abreast, alike⟩, by decide +kernel, by decide +kernel⟩

end System
end Lifespan
