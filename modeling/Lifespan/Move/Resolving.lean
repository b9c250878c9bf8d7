import Lifespan.Move

-- Finding a singleton or making it. A store is looked at before anything is held and again with
-- the gate of the key held, so that of all who want a key only one makes it.
namespace Lifespan.Move
variable {C : Client}

-- An active scope resolves for everyone, one that is being ended only for whoever is in the
-- middle of a construction.
def check (world : World C) (point : Point C) (frames : List (Frame C)) : Option (Move C) :=
  (world.scope? point.scope).map fun cell =>
    match cell.state with
    | .active => silent point.admitted frames
    | .destructionPending => silent (.vouch point) frames
    | _ => silent (point.refused (.inactive point.scope.id)) frames

def vouch (world : World C) (me : ThreadId) (point : Point C) (frames : List (Frame C)) : Option (Move C) :=
  (world.scope? point.scope).map fun cell =>
    if cell.gates.isBuilding me then silent point.admitted frames
    else silent (point.refused (.inactive point.scope.id)) frames

def sighted (cell : Scope C) (request : Request) : Option (Reply C) :=
  (cell.store.get? request.key).map fun entry =>
    match entry.downcast request.type with
    | some object => .object object
    | none => .fault (.mismatch request.scope.id request.key request.type)

def look (world : World C) (sight : Sight C) (frames : List (Frame C)) : Option (Move C) :=
  (world.scope? sight.scope).map fun cell =>
    match sight with
    | .first job =>
      match sighted cell job.request with
      | some reply => silent (.back reply) frames
      | none => silent (.share job) frames
    | .inside job gate =>
      match sighted cell job.request with
      | some reply => silent (.leave job.request.scope (.building job.request.key gate) (.back reply)) frames
      | none =>
        ⟨.still, [.factory job.request.scope job.request.key], .run (job.factory job.request.scope),
          .factory job gate :: frames⟩
    | .peek request =>
      match sighted cell request with
      | some (.object object) => silent (.back (.object object)) frames
      | _ => silent (.back .nothing) frames
    | .holds _ key => silent (.back (.flag (cell.store.contains key))) frames

-- Constructions exclude only the ending of the scope, not each other.
def share (world : World C) (job : Job C) (frames : List (Frame C)) : Option (Move C) := do
  let cell ← world.scope? job.request.scope
  if cell.exclusive.isSome then none
  else some (changing (.share job.request.scope) (.check (.shared job)) frames)

-- Whoever would wait for itself is refused instead of waiting.
def queue (world : World C) (me : ThreadId) (job : Job C) (frames : List (Frame C)) : Option (Move C) :=
  (world.scope? job.request.scope).map fun cell =>
    if cell.gates.waitsOn job.request.key me then
      silent (.leave job.request.scope .lifecycle (.back (.fault (.cyclic job.request.scope.id job.request.key)))) frames
    else
      changing (.queue job.request.scope job.request.key)
        (.turn job (cell.gates.queue job.request.key me cell.turns.length).1) frames

def turn (world : World C) (job : Job C) (gate : GateRef) (frames : List (Frame C)) : Option (Move C) := do
  let cell ← world.scope? job.request.scope
  match cell.turns[gate]? with
  | some none => some (changing (.seize job.request.scope gate) (.start job gate) frames)
  | _ => none

def start (job : Job C) (gate : GateRef) (frames : List (Frame C)) : Move C :=
  changing (.start job.request.scope job.request.key) (.check (.sight (.inside job gate))) frames

def keep (world : World C) (job : Job C) (gate : GateRef) (datum : C.Datum) (hooks : Hooks (Code C))
    (frames : List (Frame C)) : Move C :=
  let object := world.nextInstance job.request.scope
  ⟨.keep job.request.scope job.request.key ⟨job.request.type, datum, hooks⟩,
    [.stored job.request.scope job.request.key object],
    .emit job.request.scope.registry (.created job.request.scope.id job.request.key), .created job gate object :: frames⟩

-- A factory that ends without an instance has failed too.
def unbuilt : Cause := .words "nothing was built" []

def factoryCause : Reply C → Cause
  | .failed cause => cause
  | _ => unbuilt

def giveUp (job : Job C) (gate : GateRef) (cause : Cause) (frames : List (Frame C)) : Move C :=
  ⟨.still, [.logged (.constructionFailed job.request.scope.id job.request.key cause)],
    .leave job.request.scope (.building job.request.key gate)
      (.back (.fault (.construction job.request.scope.id job.request.key cause))), frames⟩

-- What is held is given up in the opposite order of its taking, whether the construction is
-- left by a reply or by a panic.
def leave (scope : ScopeRef) (hold : Hold) (exit : Exit C) (frames : List (Frame C)) : Move C :=
  match hold with
  | .building key gate => changing (.finish scope key) (.leave scope (.turn gate) exit) frames
  | .turn gate => changing (.yield scope gate) (.leave scope .lifecycle exit) frames
  | .lifecycle => changing (.unshare scope) exit.focus frames

end Lifespan.Move
