import Lifespan.System

-- What one step of a thread can be, rule by rule. Everything that is proved of runs goes
-- through these rules instead of through the functions that compute a move.
namespace Lifespan
variable {C : Client}

def Effect.isOwn : Effect C → Bool
  | still | remember _ | establish _ | listen _ _ | make _ | removeAttribute _ _ => true
  | _ => false

def Item.isNote : Item C → Bool
  | note _ => true
  | _ => false

def Op.isByHand : Op C → Bool
  | destroyAll _ _ | invoke _ => true
  | _ => false

def Op.starts? : Op C → Option (Focus C × List (Frame C))
  | finish registry id => some (.find registry id, [])
  | endGuard guard => some (.find guard.registry guard.scope.id, [])
  | dropGuard guard => some (.find guard.registry guard.scope.id, [.released guard])
  | shutdown registry => some (.gather registry, [])
  | peek scope key type => some (.check (.sight (.peek ⟨scope, key, type⟩)), [])
  | holds scope key => some (.check (.sight (.holds scope key)), [])
  | destroyAll scope store => some (.tear (.begin scope store.drainNewestFirst.1), [])
  | _ => none

def Op.isImmediate : Op C → Bool
  | finish _ _ | endGuard _ | dropGuard _ | shutdown _ | peek _ _ _ | holds _ _ | destroyAll _ _ | invoke _ => false
  | _ => true

def Code.asks : Code C → Bool
  | call _ _ | resolve _ _ _ => true
  | _ => false

def Frame.building? : Frame C → Option (Job C × GateRef)
  | factory job gate | created job gate _ | welcomed job gate _ => some (job, gate)
  | _ => none

def Frame.ending? : Frame C → Option ScopeRef
  | torn scope | closed scope _ => some scope
  | _ => none

def Frame.isPassive : Frame C → Bool
  | begun _ | reported _ | ended _ _ | sweeping _ _ _ | dropped | released _ | invoked _ => true
  | _ => false

inductive Turn (world : World C) (me : ThreadId) : Thread C → Move C → Prop
  -- user code by itself
  | goOn (alone : code.asks = false) (own : effect.isOwn = true) (noted : ∀ item ∈ items, Item.isNote item = true) :
      Turn world me ⟨.run code, frames⟩ ⟨effect, items, .run next, frames⟩
  | ends (alone : code.asks = false) : Turn world me ⟨.run code, frames⟩ ⟨.still, [], .back reply, frames⟩
  | panics {panic : Panic} (alone : code.asks = false) : Turn world me ⟨.run code, frames⟩ ⟨.still, [], .unwind panic, frames⟩
  | builds : Turn world me ⟨.run (.built datum hooks), .factory job gate :: frames⟩
      (Move.keep world job gate datum hooks frames)
  -- its calls
  | answers (own : effect.isOwn = true) (immediate : op.isImmediate = true) :
      Turn world me ⟨.run (.call op next), frames⟩ ⟨effect, [.called op], .back reply, .user next :: frames⟩
  | begins {id : ScopeId} (vacant : (world.occupant registry id).any world.isAlive = false)
      (known : registry < world.registries.length) :
      Turn world me ⟨.run (.call (.begin registry id) next), frames⟩
        ⟨.register registry id, [.called (.begin registry id)], .emit registry (.began id),
          .begun (world.nextScope registry id) :: .user next :: frames⟩
  | calls (starts : op.starts? = some (focus, waiting)) :
      Turn world me ⟨.run (.call op next), frames⟩ ⟨.still, [.called op], focus, waiting ++ .user next :: frames⟩
  | drops : Turn world me ⟨.run (.call (.drop registry) next), frames⟩
      ⟨.still, [.called (.drop registry)], .gather registry, .dropped :: .user next :: frames⟩
  | assigns (active : world.isActive scope = true) :
      Turn world me ⟨.run (.call (.setAttribute scope name value) next), frames⟩
        ⟨.still, [.called (.setAttribute scope name value)], .assign scope name value, .user next :: frames⟩
  | invokes {made : Instance C} (found : world.instance? hook.object = some made) :
      Turn world me ⟨.run (.call (.invoke hook) next), frames⟩
        ⟨.still, [.called (.invoke hook), .hook hook], .run (made.hooks.code hook), .invoked hook :: .user next :: frames⟩
  | resolves : Turn world me ⟨.run (.resolve request factory next), frames⟩
      ⟨.still, [], .check (.sight (.first ⟨request, factory⟩)), .user next :: frames⟩
  -- telling an event
  | emits (found : world.registries[registry]? = some cell) : Turn world me ⟨.emit registry event, frames⟩
      ⟨.still, [.emitted registry event, .logged (.ofEvent cell.settings event)], .deliver registry event, frames⟩
  | unheard (found : world.registries[registry]? = some cell) (deaf : cell.listener = none) :
      Turn world me ⟨.deliver registry event, frames⟩ ⟨.still, [], .back .done, frames⟩
  | hears (found : world.registries[registry]? = some cell) (listens : cell.listener = some listener) :
      Turn world me ⟨.deliver registry event, frames⟩
        ⟨.still, [.delivered registry event], .run (listener event), .delivering registry event :: frames⟩
  -- resolving
  | admits (found : world.scope? point.scope = some cell) (active : cell.state = .active) :
      Turn world me ⟨.check point, frames⟩ ⟨.still, [], point.admitted, frames⟩
  | doubts (found : world.scope? point.scope = some cell) (ending : cell.state = .destructionPending) :
      Turn world me ⟨.check point, frames⟩ ⟨.still, [], .vouch point, frames⟩
  | refuses (found : world.scope? point.scope = some cell) (inactive : cell.state ≠ .active)
      (past : cell.state ≠ .destructionPending) :
      Turn world me ⟨.check point, frames⟩ ⟨.still, [], point.refused (.inactive point.scope.id), frames⟩
  | vouches (found : world.scope? point.scope = some cell) (building : cell.gates.isBuilding me = true) :
      Turn world me ⟨.vouch point, frames⟩ ⟨.still, [], point.admitted, frames⟩
  | disowns (found : world.scope? point.scope = some cell) (idle : cell.gates.isBuilding me = false) :
      Turn world me ⟨.vouch point, frames⟩ ⟨.still, [], point.refused (.inactive point.scope.id), frames⟩
  | sees (found : world.scope? job.request.scope = some cell) (seen : Move.sighted cell job.request = some reply) :
      Turn world me ⟨.look (.first job), frames⟩ ⟨.still, [], .back reply, frames⟩
  | misses (found : world.scope? job.request.scope = some cell) (unseen : Move.sighted cell job.request = none) :
      Turn world me ⟨.look (.first job), frames⟩ ⟨.still, [], .share job, frames⟩
  | seesInside (found : world.scope? job.request.scope = some cell)
      (seen : Move.sighted cell job.request = some reply) :
      Turn world me ⟨.look (.inside job gate), frames⟩
        ⟨.still, [], .leave job.request.scope (.building job.request.key gate) (.back reply), frames⟩
  | makes (found : world.scope? job.request.scope = some cell) (unseen : Move.sighted cell job.request = none) :
      Turn world me ⟨.look (.inside job gate), frames⟩
        ⟨.still, [.factory job.request.scope job.request.key], .run (job.factory job.request.scope),
          .factory job gate :: frames⟩
  | peeks (found : world.scope? request.scope = some cell)
      (seen : ∀ object, reply = .object object → Move.sighted cell request = some (.object object)) :
      Turn world me ⟨.look (.peek request), frames⟩ ⟨.still, [], .back reply, frames⟩
  | holds : Turn world me ⟨.look (.holds scope key), frames⟩ ⟨.still, [], .back (.flag flag), frames⟩
  | shares (found : world.scope? job.request.scope = some cell) (free : cell.exclusive = none) :
      Turn world me ⟨.share job, frames⟩ ⟨.share job.request.scope, [], .check (.shared job), frames⟩
  | balks (found : world.scope? job.request.scope = some cell) (cyclic : cell.gates.waitsOn job.request.key me = true) :
      Turn world me ⟨.queue job, frames⟩ ⟨.still, [], .leave job.request.scope .lifecycle
        (.back (.fault (.cyclic job.request.scope.id job.request.key))), frames⟩
  | queues (found : world.scope? job.request.scope = some cell)
      (acyclic : cell.gates.waitsOn job.request.key me = false) :
      Turn world me ⟨.queue job, frames⟩ ⟨.queue job.request.scope job.request.key, [],
        .turn job (cell.gates.queue job.request.key me cell.turns.length).1, frames⟩
  | seizes (found : world.scope? job.request.scope = some cell) (free : cell.turns[gate]? = some none) :
      Turn world me ⟨.turn job gate, frames⟩ ⟨.seize job.request.scope gate, [], .start job gate, frames⟩
  | starts : Turn world me ⟨.start job gate, frames⟩
      ⟨.start job.request.scope job.request.key, [], .check (.sight (.inside job gate)), frames⟩
  | finishes : Turn world me ⟨.leave scope (.building key gate) exit, frames⟩
      ⟨.finish scope key, [], .leave scope (.turn gate) exit, frames⟩
  | yields : Turn world me ⟨.leave scope (.turn gate) exit, frames⟩
      ⟨.yield scope gate, [], .leave scope .lifecycle exit, frames⟩
  | leaves : Turn world me ⟨.leave scope .lifecycle exit, frames⟩ ⟨.unshare scope, [], exit.focus, frames⟩
  -- ending
  | overlooks {id : ScopeId} (vacant : world.registered registry id = none) :
      Turn world me ⟨.find registry id, frames⟩ ⟨.still, [], .back (.fault (.unknown id)), frames⟩
  | finds {id : ScopeId} (registered : world.registered registry id = some scope) :
      Turn world me ⟨.find registry id, frames⟩ ⟨.still, [], .retire scope, .ended registry scope :: frames⟩
  | retires (found : world.scope? scope = some cell) (active : cell.state = .active) :
      Turn world me ⟨.retire scope, frames⟩ ⟨.retire scope, [], .exclude scope, frames⟩
  | spares (found : world.scope? scope = some cell) (inactive : cell.state ≠ .active) :
      Turn world me ⟨.retire scope, frames⟩ ⟨.still, [], .back (.fault (.unknown scope.id)), frames⟩
  | excludes (found : world.scope? scope = some cell) (unshared : cell.sharing = []) (free : cell.exclusive = none) :
      Turn world me ⟨.exclude scope, frames⟩ ⟨.exclude scope, [], .empty scope, frames⟩
  | empties (found : world.scope? scope = some cell) :
      Turn world me ⟨.empty scope, frames⟩ ⟨.empty scope, [], .clear scope cell.store.drainNewestFirst.1, frames⟩
  | clears : Turn world me ⟨.clear scope entries, frames⟩
      ⟨.clearGates scope, [], .tear (.begin scope entries), .torn scope :: frames⟩
  | turnsBack (phase : teardown.phase = .beforeDestroy) (visited : teardown.rest = []) :
      Turn world me ⟨.tear teardown, frames⟩
        ⟨.still, [], .tear { teardown with phase := .destroy, rest := teardown.entries }, frames⟩
  | tearsDown (phase : teardown.phase = .destroy) (visited : teardown.rest = []) :
      Turn world me ⟨.tear teardown, frames⟩ ⟨.still, [], .back (.failures teardown.failures), frames⟩
  | warns {made : Instance C} (phase : teardown.phase = .beforeDestroy) (left : teardown.rest = (key, entry) :: rest)
      (found : world.instance? entry.object = some made) :
      Turn world me ⟨.tear teardown, frames⟩ ⟨.still, [.hook (.before entry.object teardown.scope)],
        .run (made.hooks.code (.before entry.object teardown.scope)), .hooked { teardown with rest } key :: frames⟩
  | destroys {made : Instance C} (phase : teardown.phase = .destroy) (left : teardown.rest = (key, entry) :: rest)
      (found : world.instance? entry.object = some made) :
      Turn world me ⟨.tear teardown, frames⟩ ⟨.still, [.hook (.destroy entry.object)],
        .run (made.hooks.code (.destroy entry.object)), .hooked { teardown with rest } key :: frames⟩
  | settles : Turn world me ⟨.settle scope failures, frames⟩
      ⟨.clearAttributes scope, [], .mark scope failures, frames⟩
  | marks : Turn world me ⟨.mark scope failures, frames⟩
      ⟨.mark scope, [], .emit scope.registry (.ended scope.id failures.length), .closed scope failures :: frames⟩
  | reopens : Turn world me ⟨.reopen scope exit, frames⟩ ⟨.reopen scope, [], exit.focus, frames⟩
  | forgets : Turn world me ⟨.forget registry scope reply, frames⟩
      ⟨.forget registry scope, [], .back reply, frames⟩
  | gathers (logged : ∀ item ∈ items, ∃ id : ScopeId, item = .logged (.stillAlive id))
      (known : registry < world.registries.length) :
      Turn world me ⟨.gather registry, frames⟩ ⟨.still, items, .emit registry (.shutdown (world.leftovers registry).length),
        .sweeping registry (world.leftovers registry) [] :: frames⟩
  | sets : Turn world me ⟨.assign scope name value, frames⟩ ⟨.setAttribute scope name value, [], .back .done, frames⟩
  -- coming back
  | backUser : Turn world me ⟨.back reply, .user next :: frames⟩ ⟨.still, [], .run (next reply), frames⟩
  | backDelivering : Turn world me ⟨.back reply, .delivering registry event :: frames⟩ ⟨.still, [], .back .done, frames⟩
  | backBegun : Turn world me ⟨.back reply, .begun scope :: frames⟩ ⟨.still, [], .back (.scope scope), frames⟩
  | backFactory : Turn world me ⟨.back reply, .factory job gate :: frames⟩
      (Move.giveUp job gate (Move.factoryCause reply) frames)
  | backCreated {made : Instance C} (found : world.instance? object = some made) :
      Turn world me ⟨.back reply, .created job gate object :: frames⟩
        ⟨.still, [.hook (.after object job.request.scope)], .run (made.hooks.code (.after object job.request.scope)),
          .welcomed job gate object :: frames⟩
  | backWelcomed : Turn world me ⟨.back reply, .welcomed job gate object :: frames⟩
      ⟨.still, [], .leave job.request.scope (.building job.request.key gate) (.back (.object object)), frames⟩
  | backHooked : Turn world me ⟨.back reply, .hooked teardown key :: frames⟩
      (Move.hooked teardown key (.back reply) frames)
  | backReported : Turn world me ⟨.back reply, .reported teardown :: frames⟩ ⟨.still, [], .tear teardown, frames⟩
  | backTorn : Turn world me ⟨.back reply, .torn scope :: frames⟩ ⟨.still, [], .settle scope failures, frames⟩
  | backClosed : Turn world me ⟨.back reply, .closed scope failures :: frames⟩
      ⟨.still, [], .reopen scope (.back (.ofFailures failures)), frames⟩
  | backEndedUnknown {id : ScopeId} : Turn world me ⟨.back (.fault (.unknown id)), .ended registry scope :: frames⟩
      ⟨.still, [], .back (.fault (.unknown id)), frames⟩
  | backEnded (refused : ∀ id : ScopeId, reply ≠ .fault (.unknown id)) :
      Turn world me ⟨.back reply, .ended registry scope :: frames⟩ ⟨.still, [], .forget registry scope reply, frames⟩
  | backSwept : Turn world me ⟨.back reply, .sweeping registry [] failures :: frames⟩
      ⟨.still, [], .back (.failures (Move.gathered failures reply)), frames⟩
  | backSweeping {id : ScopeId} : Turn world me ⟨.back reply, .sweeping registry (id :: rest) failures :: frames⟩
      ⟨.still, [], .find registry id, .sweeping registry rest (Move.gathered failures reply) :: frames⟩
  | backDropped : Turn world me ⟨.back reply, .dropped :: frames⟩ (Move.dropped reply frames)
  | backReleased {guard : Guard} : Turn world me ⟨.back reply, .released guard :: frames⟩ (Move.released guard reply frames)
  | backInvoked : Turn world me ⟨.back reply, .invoked hook :: frames⟩ ⟨.still, [], .back answer, frames⟩
  -- a panic on its way out
  | unwindUser {panic : Panic} : Turn world me ⟨.unwind panic, .user next :: frames⟩ ⟨.still, [], .run (next (.panicked panic)), frames⟩
  | unwindDelivering {panic : Panic} : Turn world me ⟨.unwind panic, .delivering registry event :: frames⟩
      ⟨.still, [.listenerPanicked registry event], .unwind panic, frames⟩
  | unwindBuilding {panic : Panic} {frame : Frame C} (building : frame.building? = some (job, gate)) :
      Turn world me ⟨.unwind panic, frame :: frames⟩
        ⟨.still, [], .leave job.request.scope (.building job.request.key gate) (.unwind panic), frames⟩
  | unwindHooked {panic : Panic} : Turn world me ⟨.unwind panic, .hooked teardown key :: frames⟩
      (Move.hooked teardown key (.unwind panic) frames)
  | unwindEnding {panic : Panic} {frame : Frame C} (ending : frame.ending? = some scope) :
      Turn world me ⟨.unwind panic, frame :: frames⟩ ⟨.still, [], .reopen scope (.unwind panic), frames⟩
  | unwindOther {panic : Panic} {frame : Frame C} (passive : frame.isPassive = true) :
      Turn world me ⟨.unwind panic, frame :: frames⟩ ⟨.still, [], .unwind panic, frames⟩

theorem call_starts (starts : op.starts? = some (focus, waiting)) :
    Move.call world op frames = some (.silent focus (waiting ++ frames)) := by
  cases op <;> cases starts <;> rfl

theorem call_turn (moved : Move.call world op (.user next :: frames) = some move) :
    Turn world me ⟨.run (.call op next), frames⟩ (move.also (.called op)) := by
  cases op with
  | begin registry id =>
    simp only [Move.call, Move.begin, Option.map_eq_some_iff] at moved
    obtain ⟨cell, found, rfl⟩ := moved
    have known : registry < world.registries.length := (List.getElem?_eq_some_iff.mp found).1
    have same : world.occupant registry id = cell.directory.occupant id := by simp [World.occupant, found]
    split
    · exact .answers rfl rfl
    · rename_i vacant
      exact .begins (by rw [same]; simpa using vacant) known
  | drop registry =>
    simp only [Move.call] at moved
    split at moved
    · cases Option.some.inj moved; exact .drops
    · cases Option.some.inj moved; exact .answers rfl rfl
  | setAttribute scope name value =>
    simp only [Move.call, Option.map_eq_some_iff] at moved
    obtain ⟨cell, found, rfl⟩ := moved
    split
    · rename_i active
      exact .assigns (by simp [World.isActive, found, active])
    · exact .answers rfl rfl
  | removeAttribute scope name =>
    simp only [Move.call, Option.map_eq_some_iff] at moved
    obtain ⟨cell, found, rfl⟩ := moved
    exact .answers rfl rfl
  | invoke hook =>
    simp only [Move.call, Move.callHook, Option.map_eq_some_iff] at moved
    obtain ⟨made, found, rfl⟩ := moved
    exact .invokes found
  | establish | silence => cases Option.some.inj moved; exact .answers rfl rfl
  | finish | endGuard | dropGuard | shutdown | peek | holds | destroyAll =>
    rw [call_starts rfl] at moved
    cases Option.some.inj moved
    exact .calls rfl
  | _ =>
    simp only [Move.call, Option.map_eq_some_iff] at moved
    obtain ⟨reply, found, rfl⟩ := moved
    exact .answers rfl rfl

theorem run_turn (moved : Move.run world code frames = some move) : Turn world me ⟨.run code, frames⟩ move := by
  cases code with
  | built datum hooks =>
    simp only [Move.run] at moved
    split at moved
    · cases Option.some.inj moved; exact .builds
    · cases Option.some.inj moved; exact .ends rfl
  | done | fail => cases Option.some.inj moved; exact .ends rfl
  | panic => cases Option.some.inj moved; exact .panics rfl
  | jump | note | access | listen | make => cases Option.some.inj moved; exact .goOn rfl rfl (by simp [Item.isNote])
  | await | pause =>
    simp only [Move.run, Option.ite_none_right_eq_some] at moved
    cases Option.some.inj moved.2
    exact .goOn rfl rfl (by simp)
  | awaitState scope state next =>
    simp only [Move.run, Option.bind_eq_bind, Option.bind_eq_some_iff, Option.ite_none_right_eq_some] at moved
    obtain ⟨cell, found, reached, same⟩ := moved
    cases Option.some.inj same
    exact .goOn rfl rfl (by simp)
  | call op next =>
    obtain ⟨called, answered, rfl⟩ := Option.map_eq_some_iff.mp moved
    exact call_turn answered
  | resolve => cases Option.some.inj moved; exact .resolves
  | fork => cases moved

theorem back_turn (moved : Move.back world reply frames = some move) :
    Turn world me ⟨.back reply, frames⟩ move := by
  cases frames with
  | nil => cases moved
  | cons frame rest =>
    cases frame with
    | created job gate object =>
      obtain ⟨made, found, rfl⟩ := Option.map_eq_some_iff.mp moved
      exact .backCreated found
    | torn scope =>
      simp only [Move.back] at moved
      split at moved <;> (cases Option.some.inj moved; exact .backTorn)
    | ended registry scope =>
      simp only [Move.back, Move.ended] at moved
      split at moved
      · cases Option.some.inj moved; exact .backEndedUnknown
      · rename_i refused
        cases Option.some.inj moved
        exact .backEnded fun id same => refused id same
    | sweeping registry remaining failures =>
      cases remaining <;> cases Option.some.inj moved
      · exact .backSwept
      · exact .backSweeping
    | invoked hook =>
      simp only [Move.back] at moved
      split at moved <;> (cases Option.some.inj moved; exact .backInvoked)
    | user => cases Option.some.inj moved; exact .backUser
    | delivering => cases Option.some.inj moved; exact .backDelivering
    | begun => cases Option.some.inj moved; exact .backBegun
    | factory => cases Option.some.inj moved; exact .backFactory
    | welcomed => cases Option.some.inj moved; exact .backWelcomed
    | hooked => cases Option.some.inj moved; exact .backHooked
    | reported => cases Option.some.inj moved; exact .backReported
    | closed => cases Option.some.inj moved; exact .backClosed
    | dropped => cases Option.some.inj moved; exact .backDropped
    | released => cases Option.some.inj moved; exact .backReleased

theorem unwind_turn {panic : Panic} (moved : Move.unwind panic frames = some move) :
    Turn world me ⟨.unwind panic, frames⟩ move := by
  cases frames with
  | nil => cases moved
  | cons frame rest =>
    cases frame with
    | user => cases Option.some.inj moved; exact .unwindUser
    | delivering => cases Option.some.inj moved; exact .unwindDelivering
    | factory | created | welcomed => cases Option.some.inj moved; exact .unwindBuilding rfl
    | hooked => cases Option.some.inj moved; exact .unwindHooked
    | torn | closed => cases Option.some.inj moved; exact .unwindEnding rfl
    | _ => cases Option.some.inj moved; exact .unwindOther rfl

theorem check_turn (moved : Move.check world point frames = some move) :
    Turn world me ⟨.check point, frames⟩ move := by
  obtain ⟨cell, found, rfl⟩ := Option.map_eq_some_iff.mp moved
  cases state : cell.state with
  | active => exact .admits found state
  | destructionPending => exact .doubts found state
  | created | destroyed => exact .refuses found (by simp [state]) (by simp [state])

theorem vouch_turn (moved : Move.vouch world me point frames = some move) :
    Turn world me ⟨.vouch point, frames⟩ move := by
  obtain ⟨cell, found, rfl⟩ := Option.map_eq_some_iff.mp moved
  split
  · rename_i building; exact .vouches found building
  · rename_i idle; exact .disowns found (by simpa using idle)

theorem look_turn (moved : Move.look world sight frames = some move) : Turn world me ⟨.look sight, frames⟩ move := by
  obtain ⟨cell, found, rfl⟩ := Option.map_eq_some_iff.mp moved
  cases sight with
  | first job =>
    cases seen : Move.sighted cell job.request with
    | none => simpa [seen] using .misses found seen
    | some reply => simpa [seen] using .sees found seen
  | inside job gate =>
    cases seen : Move.sighted cell job.request with
    | none => simpa [seen] using .makes found seen
    | some reply => simpa [seen] using .seesInside found seen
  | peek request =>
    dsimp only
    split
    · rename_i object seen
      exact .peeks found fun other same => by cases same; exact seen
    · exact .peeks found fun other same => by cases same
  | holds scope key => exact .holds

theorem share_turn (moved : Move.share world job frames = some move) : Turn world me ⟨.share job, frames⟩ move := by
  simp only [Move.share, Option.bind_eq_bind, Option.bind_eq_some_iff, Option.ite_none_left_eq_some] at moved
  obtain ⟨cell, found, free, same⟩ := moved
  cases Option.some.inj same
  exact .shares found (by simpa using free)

theorem queue_turn (moved : Move.queue world me job frames = some move) :
    Turn world me ⟨.queue job, frames⟩ move := by
  obtain ⟨cell, found, rfl⟩ := Option.map_eq_some_iff.mp moved
  split
  · rename_i cyclic; exact .balks found cyclic
  · rename_i acyclic; exact .queues found (by simpa using acyclic)

theorem turn_turn (moved : Move.turn world job gate frames = some move) :
    Turn world me ⟨.turn job gate, frames⟩ move := by
  simp only [Move.turn, Option.bind_eq_bind, Option.bind_eq_some_iff] at moved
  obtain ⟨cell, found, moved⟩ := moved
  split at moved
  · rename_i free; cases Option.some.inj moved; exact .seizes found free
  · cases moved

theorem leave_turn : Turn world me ⟨.leave scope hold exit, frames⟩ (Move.leave scope hold exit frames) := by
  cases hold with
  | building => exact .finishes
  | turn => exact .yields
  | lifecycle => exact .leaves

theorem find_turn {id : ScopeId} : Turn world me ⟨.find registry id, frames⟩ (Move.find world registry id frames) := by
  unfold Move.find
  split
  · rename_i vacant; exact .overlooks vacant
  · rename_i registered; exact .finds registered

theorem retire_turn (moved : Move.retire world scope frames = some move) :
    Turn world me ⟨.retire scope, frames⟩ move := by
  obtain ⟨cell, found, rfl⟩ := Option.map_eq_some_iff.mp moved
  split
  · rename_i active; exact .retires found (by simpa [Scope.isActive] using active)
  · rename_i inactive; exact .spares found (by simpa [Scope.isActive] using inactive)

theorem exclude_turn (moved : Move.exclude world scope frames = some move) :
    Turn world me ⟨.exclude scope, frames⟩ move := by
  simp only [Move.exclude, Option.bind_eq_bind, Option.bind_eq_some_iff, Option.ite_none_right_eq_some] at moved
  obtain ⟨cell, found, free, same⟩ := moved
  cases Option.some.inj same
  simp only [Bool.and_eq_true, List.isEmpty_iff, Option.isNone_iff_eq_none] at free
  exact .excludes found free.1 free.2

theorem tear_turn (moved : Move.tear world teardown frames = some move) :
    Turn world me ⟨.tear teardown, frames⟩ move := by
  unfold Move.tear Move.callHook at moved
  split at moved
  · rename_i phase visited; cases Option.some.inj moved; exact .turnsBack phase visited
  · rename_i phase visited; cases Option.some.inj moved; exact .tearsDown phase visited
  · rename_i phase left
    obtain ⟨made, found, rfl⟩ := Option.map_eq_some_iff.mp moved
    exact .warns phase left found
  · rename_i phase left
    obtain ⟨made, found, rfl⟩ := Option.map_eq_some_iff.mp moved
    exact .destroys phase left found

theorem gather_turn (moved : Move.gather world registry frames = some move) :
    Turn world me ⟨.gather registry, frames⟩ move := by
  obtain ⟨cell, found, rfl⟩ := Option.map_eq_some_iff.mp moved
  refine .gathers ?_ (List.getElem?_eq_some_iff.mp found).1
  intro item named
  split at named
  · obtain ⟨id, _, rfl⟩ := List.mem_map.mp named; exact ⟨id, rfl⟩
  · cases named

theorem deliver_turn (moved : Move.deliver world registry event frames = some move) :
    Turn world me ⟨.deliver registry event, frames⟩ move := by
  obtain ⟨cell, found, rfl⟩ := Option.map_eq_some_iff.mp moved
  split
  · rename_i deaf; exact .unheard found deaf
  · rename_i listens; exact .hears found listens

theorem next_turn (moved : thread.next world me = some move) : Turn world me thread move := by
  obtain ⟨focus, frames⟩ := thread
  cases focus with
  | run code => exact run_turn moved
  | back reply => exact back_turn moved
  | unwind panic => exact unwind_turn moved
  | emit registry event => obtain ⟨cell, found, rfl⟩ := Option.map_eq_some_iff.mp moved; exact .emits found
  | deliver registry event => exact deliver_turn moved
  | check point => exact check_turn moved
  | vouch point => exact vouch_turn moved
  | look sight => exact look_turn moved
  | share job => exact share_turn moved
  | queue job => exact queue_turn moved
  | turn job gate => exact turn_turn moved
  | retire scope => exact retire_turn moved
  | exclude scope => exact exclude_turn moved
  | empty scope => obtain ⟨cell, found, rfl⟩ := Option.map_eq_some_iff.mp moved; exact .empties found
  | tear teardown => exact tear_turn moved
  | gather registry => exact gather_turn moved
  | leave => cases Option.some.inj moved; exact leave_turn
  | find => cases Option.some.inj moved; exact find_turn
  | start => cases Option.some.inj moved; exact .starts
  | clear => cases Option.some.inj moved; exact .clears
  | settle => cases Option.some.inj moved; exact .settles
  | mark => cases Option.some.inj moved; exact .marks
  | reopen => cases Option.some.inj moved; exact .reopens
  | forget => cases Option.some.inj moved; exact .forgets
  | assign => cases Option.some.inj moved; exact .sets
  | join => cases moved

def Thread.isOver (thread : Thread C) : Prop :=
  match thread.focus, thread.frames with
  | .back _, _ :: _ | .unwind _, _ :: _ | .run (.built _ _), .factory _ _ :: _ => True
  | _, _ => False

@[simp] theorem dropped_effect : (Move.dropped reply frames).effect = .still := by unfold Move.dropped; split <;> rfl

@[simp] theorem dropped_focus : (Move.dropped reply frames).focus = .back .done := by unfold Move.dropped; split <;> rfl

@[simp] theorem dropped_frames : (Move.dropped reply frames).frames = frames := by unfold Move.dropped; split <;> rfl

@[simp] theorem released_effect {guard : Guard} : (Move.released guard reply frames).effect = .still := by
  unfold Move.released
  split <;> rfl

@[simp] theorem released_focus {guard : Guard} : (Move.released guard reply frames).focus = .back .done := by
  unfold Move.released
  split <;> rfl

@[simp] theorem released_frames {guard : Guard} : (Move.released guard reply frames).frames = frames := by
  unfold Move.released
  split <;> rfl

@[simp] theorem hooked_effect {teardown : Teardown} {exit : Exit C} : (Move.hooked teardown key exit frames).effect = .still := by
  unfold Move.hooked
  cases teardown.phase <;> rfl

theorem hooked_frames (teardown : Teardown) (key : String) (exit : Exit C) (frames : List (Frame C)) :
    ∃ upper, (Move.hooked teardown key exit frames).frames = upper ++ frames := by
  unfold Move.hooked
  cases teardown.phase
  · exact ⟨[], rfl⟩
  · exact ⟨[_], rfl⟩

def Focus.isPassed : Focus C → Bool
  | .back _ | .unwind _ | .check _ | .look _ | .queue _ | .leave _ _ _ | .find _ _ | .gather _ | .tear _ | .emit _ _ => true
  | _ => false

theorem exit_passed (exit : Exit C) : exit.focus.isPassed = true := by cases exit <;> rfl

theorem admitted_passed (point : Point C) : point.admitted.isPassed = true := by cases point <;> rfl

theorem refused_passed (point : Point C) (fault : Fault) : (point.refused fault).isPassed = true := by
  cases point with
  | shared => rfl
  | sight place => cases place <;> rfl

theorem starts_passed {op : Op C} (starts : op.starts? = some (focus, waiting)) : focus.isPassed = true := by
  cases op <;> cases starts <;> rfl

theorem hooked_passed {teardown : Teardown} {exit : Exit C} : (Move.hooked teardown key exit frames).focus.isPassed = true := by
  unfold Move.hooked
  cases teardown.phase <;> rfl

theorem Turn.frames_kept (turn : Turn world me thread move) :
    (∃ upper, move.frames = upper ++ thread.frames) ∨
      thread.isOver ∧ ∃ upper frame rest, thread.frames = frame :: rest ∧ move.frames = upper ++ rest := by
  cases turn with
  | calls => exact .inl ⟨_ ++ [_], (List.append_assoc _ [_] _).symm⟩
  | begins | drops | invokes => exact .inl ⟨[_, _], rfl⟩
  | answers | assigns | resolves | hears | makes | finds | clears | warns | destroys | marks | gathers =>
    exact .inl ⟨[_], rfl⟩
  | builds | backCreated | backSweeping => exact .inr ⟨trivial, [_], _, _, rfl, rfl⟩
  | backHooked | unwindHooked =>
    obtain ⟨upper, same⟩ := hooked_frames _ _ _ _
    exact .inr ⟨trivial, upper, _, _, rfl, same⟩
  | backDropped => exact .inr ⟨trivial, [], _, _, rfl, dropped_frames⟩
  | backReleased => exact .inr ⟨trivial, [], _, _, rfl, released_frames⟩
  | backUser | backDelivering | backBegun | backFactory | backWelcomed | backReported | backTorn | backClosed |
    backEndedUnknown | backEnded | backSwept | backInvoked | unwindUser | unwindDelivering | unwindBuilding |
    unwindEnding | unwindOther => exact .inr ⟨trivial, [], _, _, rfl, rfl⟩
  | _ => exact .inl ⟨[], rfl⟩

theorem Turn.passes {panic : Panic} {frame : Frame C} {base : List (Frame C)} (turn : Turn world me ⟨.unwind panic, frame :: base⟩ move)
    (passive : frame.isPassive = true) : move = ⟨.still, [], .unwind panic, base⟩ := by
  cases turn with
  | unwindOther => rfl
  | unwindUser | unwindDelivering | unwindHooked => cases passive
  | unwindBuilding other | unwindEnding other => cases frame <;> first | cases passive; done | cases other

theorem Turn.flees {panic : Panic} {frame : Frame C} {base : List (Frame C)} (turn : Turn world me ⟨.unwind panic, frame :: base⟩ move)
    (ending : frame.ending? = some scope) : move = ⟨.still, [], .reopen scope (.unwind panic), base⟩ := by
  cases turn with
  | unwindEnding same => cases ending.symm.trans same; rfl
  | unwindUser | unwindDelivering | unwindHooked => cases ending
  | unwindBuilding other | unwindOther other => cases frame <;> first | cases ending; done | cases other

theorem above_ne {upper base : List (Frame C)} {frame : Frame C} : upper ++ frame :: base ≠ base := by
  intro same
  have longer := congrArg List.length same
  simp only [List.length_append, List.length_cons] at longer
  omega

theorem suffix_ne {base below : List (Frame C)} {frame : Frame C} (suffix : base <:+ below) : frame :: below ≠ base := by
  rintro rfl
  exact Nat.not_succ_le_self _ suffix.length_le

-- A frame stays in its place until nothing is above it and what it waits for is over.
theorem Turn.above {upper base : List (Frame C)} {frame : Frame C} (turn : Turn world me ⟨focus, upper ++ frame :: base⟩ move) :
    (∃ more, move.frames = more ++ frame :: base) ∨ upper = [] ∧ Thread.isOver ⟨focus, frame :: base⟩ := by
  rcases turn.frames_kept with ⟨more, same⟩ | ⟨past, more, top, below, was, same⟩
  · exact .inl ⟨more ++ upper, same.trans (List.append_assoc ..).symm⟩
  · cases upper with
    | nil => exact .inr ⟨rfl, past⟩
    | cons first rest =>
      cases was
      exact .inl ⟨more ++ rest, same.trans (List.append_assoc ..).symm⟩

namespace System

-- What one step of a system can be. Only a thread that takes its turn changes what is shared.
inductive Change (before : System C) : System C → Prop
  | turn (running : before.threads[me]? = some thread) (turn : Turn before.world me thread move) :
      Change before (before.perform me move)
  | fork (running : before.threads[me]? = some ⟨.run (.fork count body next), frames⟩) :
      Change before { before with
        threads := before.threads.set me ⟨.join names next, frames⟩ ++
          (List.range count).map fun index => .ofCode (body index) }
  | join (running : before.threads[me]? = some ⟨.join names next, frames⟩) :
      Change before { before with threads := before.threads.set me ⟨.run (next reply), frames⟩ }
  | time : Change before (before.elapse passed)

theorem advance_moved {before after : System C} (moved : before.advance me = some after) : ∃ thread, before.threads[me]? = some thread ∧
    ((∃ move, thread.next before.world me = some move ∧ after = before.perform me move) ∨
      (∃ count body next frames names, thread = ⟨.run (.fork count body next), frames⟩ ∧
        after = { before with
          threads := before.threads.set me ⟨.join names next, frames⟩ ++
            (List.range count).map fun index => .ofCode (body index) }) ∨
      ∃ names next frames reply, thread = ⟨.join names next, frames⟩ ∧
        after = { before with threads := before.threads.set me ⟨.run (next reply), frames⟩ }) := by
  simp only [advance, Option.bind_eq_bind, Option.bind_eq_some_iff] at moved
  obtain ⟨⟨focus, frames⟩, running, moved⟩ := moved
  refine ⟨_, running, ?_⟩
  split at moved
  · rename_i count body next same
    cases same
    exact .inr (.inl ⟨count, body, next, frames, _, rfl, (Option.some.inj moved).symm⟩)
  · rename_i names next same
    cases same
    obtain ⟨endings, _, same⟩ := Option.bind_eq_some_iff.mp moved
    exact .inr (.inr ⟨names, next, frames, _, rfl, (Option.some.inj same).symm⟩)
  · obtain ⟨move, moves, same⟩ := Option.map_eq_some_iff.mp moved
    exact .inl ⟨move, moves, same.symm⟩

theorem advance_cases {before after : System C} (moved : before.advance me = some after) : ∃ thread, before.threads[me]? = some thread ∧
    ((∃ move, Turn before.world me thread move ∧ after = before.perform me move) ∨
      (∃ count body next frames names, thread = ⟨.run (.fork count body next), frames⟩ ∧
        after = { before with
          threads := before.threads.set me ⟨.join names next, frames⟩ ++
            (List.range count).map fun index => .ofCode (body index) }) ∨
      ∃ names next frames reply, thread = ⟨.join names next, frames⟩ ∧
        after = { before with threads := before.threads.set me ⟨.run (next reply), frames⟩ }) := by
  obtain ⟨thread, running, ⟨move, moves, same⟩ | others⟩ := advance_moved moved
  · exact ⟨thread, running, .inl ⟨move, next_turn moves, same⟩⟩
  · exact ⟨thread, running, .inr others⟩

theorem advance_change (moved : before.advance me = some after) : Change before after := by
  obtain ⟨thread, running, ⟨move, turn, rfl⟩ | ⟨_, _, _, _, _, rfl, rfl⟩ | ⟨_, _, _, _, rfl, rfl⟩⟩ := advance_cases moved
  · exact .turn running turn
  · exact .fork running
  · exact .join running

theorem step_change (step : Step before after) : Change before after := by
  cases step with
  | thread me moved => exact advance_change moved
  | time passed => exact .time

end System
end Lifespan
