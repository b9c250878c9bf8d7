import Lifespan.Move.Ending
import Lifespan.Move.Resolving

-- What user code does next, and how it is gone on with when a call comes back.
namespace Lifespan

def World.hasLiving {C : Client} (world : World C) (registry : RegistryRef) : Bool :=
  Kind.all.any fun kind => world.activeCount registry kind ≠ 0

namespace Move
variable {C : Client}

-- Beginning and registering a scope are one moment: nobody sees the one without the other.
def begin (world : World C) (registry : RegistryRef) (id : ScopeId) (frames : List (Frame C)) : Option (Move C) :=
  (world.registries[registry]?).map fun cell =>
    if (cell.directory.occupant id).any world.isAlive then silent (.back (.fault (.duplicate id))) frames
    else changing (.register registry id) (.emit registry (.began id)) (.begun (world.nextScope registry id) :: frames)

def call (world : World C) (op : Op C) (frames : List (Frame C)) : Option (Move C) :=
  match op with
  | .establish settings =>
    some (changing (.establish settings) (.back (.registry world.registries.length)) frames)
  | .silence registry => some (changing (.listen registry none) (.back .done) frames)
  | .begin registry id => begin world registry id frames
  | .finish registry id => some (silent (.find registry id) frames)
  | .endGuard guard => some (silent (.find guard.registry guard.scope.id) frames)
  | .dropGuard guard => some (silent (.find guard.registry guard.scope.id) (.released guard :: frames))
  | .shutdown registry => some (silent (.gather registry) frames)
  | .drop registry =>
    if world.hasLiving registry then some (silent (.gather registry) (.dropped :: frames))
    else some (silent (.back .done) frames)
  | .peek scope key type => some (silent (.check (.sight (.peek ⟨scope, key, type⟩))) frames)
  | .holds scope key => some (silent (.check (.sight (.holds scope key))) frames)
  | .setAttribute scope name value =>
    (world.scope? scope).map fun cell =>
      if cell.isActive then silent (.assign scope name value) frames
      else silent (.back (.fault (.inactive scope.id))) frames
  | .removeAttribute scope name =>
    (world.scope? scope).map fun cell =>
      changing (.removeAttribute scope name) (.back (.flag (cell.attributes.contains name))) frames
  | .destroyAll scope store => some (silent (.tear (.begin scope store.drainNewestFirst.1)) frames)
  | .invoke hook => callHook world hook (.invoked hook :: frames)
  | op => (world.read op).map fun reply => silent (.back reply) frames

def run (world : World C) (code : Code C) (frames : List (Frame C)) : Option (Move C) :=
  match code with
  | .done => some (silent (.back .done) frames)
  | .built datum hooks =>
    match frames with
    | .factory job gate :: rest => some (keep world job gate datum hooks rest)
    | _ => some (silent (.back .done) frames)
  | .fail cause => some (silent (.back (.failed cause)) frames)
  | .panic panic => some (silent (.unwind panic) frames)
  | .jump label => some (silent (.run (world.program label)) frames)
  | .note note next => some ⟨.still, [.note note], .run next, frames⟩
  | .access update next => some (changing (.remember update) (.run (next world.memory)) frames)
  | .await ready next => if ready world.memory then some (silent (.run next) frames) else none
  | .awaitState scope state next => do
    let cell ← world.scope? scope
    if state.number ≤ cell.state.number then some (silent (.run (next (.state cell.state))) frames) else none
  | .pause time next => if time = 0 then some (silent (.run next) frames) else none
  | .call op next => (call world op (.user next :: frames)).map (also (.called op))
  | .listen registry listener next => some (changing (.listen registry (some listener)) (.run next) frames)
  | .make type datum hooks next =>
    some (changing (.make ⟨type, datum, hooks⟩) (.run (next (.object (.loose world.loose.length)))) frames)
  | .resolve request factory next =>
    some (silent (.check (.sight (.first ⟨request, factory⟩))) (.user next :: frames))
  | .fork _ _ _ => none

def back (world : World C) (reply : Reply C) : List (Frame C) → Option (Move C)
  | [] => none
  | .user next :: rest => some (silent (.run (next reply)) rest)
  | .delivering _ _ :: rest => some (silent (.back .done) rest)
  | .begun scope :: rest => some (silent (.back (.scope scope)) rest)
  | .factory job gate :: rest => some (giveUp job gate (factoryCause reply) rest)
  | .created job gate object :: rest =>
    callHook world (.after object job.request.scope) (.welcomed job gate object :: rest)
  | .welcomed job gate object :: rest =>
    some (silent (.leave job.request.scope (.building job.request.key gate) (.back (.object object))) rest)
  | .hooked teardown key :: rest => some (hooked teardown key (.back reply) rest)
  | .reported teardown :: rest => some (silent (.tear teardown) rest)
  | .torn scope :: rest =>
    match reply with
    | .failures failures => some (silent (.settle scope failures) rest)
    | _ => some (silent (.settle scope []) rest)
  | .closed scope failures :: rest => some (silent (.reopen scope (.back (.ofFailures failures))) rest)
  | .ended registry scope :: rest => some (ended registry scope reply rest)
  | .sweeping registry remaining failures :: rest => some (sweep registry remaining (gathered failures reply) rest)
  | .dropped :: rest => some (dropped reply rest)
  | .released guard :: rest => some (released guard reply rest)
  | .invoked hook :: rest =>
    match hook, reply with
    | .destroy _, .failed cause => some (silent (.back (.failed cause)) rest)
    | _, _ => some (silent (.back .done) rest)

-- A panic leaves everything that is under way, giving up what is held for it. Only user code
-- and the teardown stop it.
def unwind (panic : Panic) : List (Frame C) → Option (Move C)
  | [] => none
  | .user next :: rest => some (silent (.run (next (.panicked panic))) rest)
  | .delivering registry event :: rest => some ⟨.still, [.listenerPanicked registry event], .unwind panic, rest⟩
  | .factory job gate :: rest | .created job gate _ :: rest | .welcomed job gate _ :: rest =>
    some (silent (.leave job.request.scope (.building job.request.key gate) (.unwind panic)) rest)
  | .hooked teardown key :: rest => some (hooked teardown key (.unwind panic) rest)
  | .torn scope :: rest | .closed scope _ :: rest => some (silent (.reopen scope (.unwind panic)) rest)
  | _ :: rest => some (silent (.unwind panic) rest)

end Move

-- No move: the thread has to wait, or has ended. Threads are made and waited for elsewhere.
def Thread.next {C : Client} (world : World C) (me : ThreadId) (thread : Thread C) : Option (Move C) :=
  let frames := thread.frames
  match thread.focus with
  | .run code => Move.run world code frames
  | .back reply => Move.back world reply frames
  | .unwind panic => Move.unwind panic frames
  | .emit registry event => Move.emit world registry event frames
  | .deliver registry event => Move.deliver world registry event frames
  | .check point => Move.check world point frames
  | .vouch point => Move.vouch world me point frames
  | .look sight => Move.look world sight frames
  | .share job => Move.share world job frames
  | .queue job => Move.queue world me job frames
  | .turn job gate => Move.turn world job gate frames
  | .start job gate => some (Move.start job gate frames)
  | .leave scope hold exit => some (Move.leave scope hold exit frames)
  | .find registry id => some (Move.find world registry id frames)
  | .retire scope => Move.retire world scope frames
  | .exclude scope => Move.exclude world scope frames
  | .empty scope => Move.empty world scope frames
  | .clear scope entries => some (Move.clear scope entries frames)
  | .tear teardown => Move.tear world teardown frames
  | .settle scope failures => some (Move.settle scope failures frames)
  | .mark scope failures => some (Move.mark scope failures frames)
  | .reopen scope exit => some (.changing (.reopen scope) exit.focus frames)
  | .forget registry scope reply => some (.changing (.forget registry scope) (.back reply) frames)
  | .gather registry => Move.gather world registry frames
  | .assign scope name value => some (.changing (.setAttribute scope name value) (.back .done) frames)
  | .join _ _ => none

end Lifespan
