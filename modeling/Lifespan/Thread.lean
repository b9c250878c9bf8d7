import Lifespan.World

-- What one thread is about to do, and what waits for it to be done.
namespace Lifespan

structure Job (C : Client) where
  request : Request
  factory : ScopeRef → Code C

inductive Sight (C : Client)
  -- before anything is held
  | first (job : Job C)
  -- with the gate of the key held
  | inside (job : Job C) (gate : GateRef)
  | peek (request : Request)
  | holds (scope : ScopeRef) (key : String)

inductive Point (C : Client)
  | sight (sight : Sight C)
  | shared (job : Job C)

inductive Exit (C : Client)
  | back (reply : Reply C)
  | unwind (panic : Panic)

-- What a construction still holds when it is left, most recent first.
inductive Hold
  | building (key : String) (gate : GateRef)
  | turn (gate : GateRef)
  | lifecycle

-- A teardown under way: what is to be visited in this pass, newest first, and what failed so far. Each
-- place among the entries has a flag for whether one of its two hooks failed.
structure Teardown where
  scope : ScopeRef
  entries : List (String × Entry)
  phase : Phase
  rest : List (String × Entry)
  failures : List Failure
  failed : List Bool

inductive Focus (C : Client)
  | run (code : Code C)
  | back (reply : Reply C)
  | unwind (panic : Panic)
  | emit (registry : RegistryRef) (event : Event)
  | deliver (registry : RegistryRef) (event : Event)
  | check (point : Point C)
  | vouch (point : Point C)
  | look (sight : Sight C)
  | share (job : Job C)
  | queue (job : Job C)
  | turn (job : Job C) (gate : GateRef)
  | start (job : Job C) (gate : GateRef)
  | leave (scope : ScopeRef) (hold : Hold) (exit : Exit C)
  | find (registry : RegistryRef) (id : ScopeId)
  | retire (scope : ScopeRef)
  | exclude (scope : ScopeRef)
  | empty (scope : ScopeRef)
  | clear (scope : ScopeRef) (entries : List (String × Entry))
  | tear (teardown : Teardown)
  | settle (scope : ScopeRef) (failures : List Failure)
  | mark (scope : ScopeRef) (failures : List Failure)
  | reopen (scope : ScopeRef) (exit : Exit C)
  | forget (registry : RegistryRef) (scope : ScopeRef) (reply : Reply C)
  | gather (registry : RegistryRef)
  | assign (scope : ScopeRef) (name : String) (value : Attribute C)
  | join (threads : List ThreadId) (next : Reply C → Code C)

inductive Frame (C : Client)
  | user (next : Reply C → Code C)
  | delivering (registry : RegistryRef) (event : Event)
  | begun (scope : ScopeRef)
  | factory (job : Job C) (gate : GateRef)
  | created (job : Job C) (gate : GateRef) (object : InstanceRef)
  -- its making has been told, and its hook runs
  | welcomed (job : Job C) (gate : GateRef) (object : InstanceRef)
  | hooked (teardown : Teardown) (key : String)
  | reported (teardown : Teardown)
  -- the instances of an ending scope are torn down
  | torn (scope : ScopeRef)
  | closed (scope : ScopeRef) (failures : List Failure)
  | ended (registry : RegistryRef) (scope : ScopeRef)
  -- a shutdown is told, or ends one of its scopes
  | sweeping (registry : RegistryRef) (rest : List ScopeId) (failures : List Failure)
  | dropped
  | released (guard : Guard)
  | invoked (call : HookCall)

structure Thread (C : Client) where
  focus : Focus C
  frames : List (Frame C)

namespace Sight
variable {C : Client}

def scope : Sight C → ScopeRef
  | first job => job.request.scope
  | inside job _ => job.request.scope
  | peek request => request.scope
  | holds scope _ => scope

def key : Sight C → String
  | first job => job.request.key
  | inside job _ => job.request.key
  | peek request => request.key
  | holds _ key => key

end Sight

def Exit.focus {C : Client} : Exit C → Focus C
  | .back reply => .back reply
  | .unwind panic => .unwind panic

namespace Point
variable {C : Client}

def scope : Point C → ScopeRef
  | sight place => place.scope
  | shared job => job.request.scope

def admitted : Point C → Focus C
  | sight place => .look place
  | shared job => .queue job

def refused (fault : Fault) : Point C → Focus C
  | sight (.first _) => .back (.fault fault)
  | sight (.inside job gate) => .leave job.request.scope (.building job.request.key gate) (.back (.fault fault))
  | sight (.peek _) => .back .nothing
  | sight (.holds _ _) => .back (.flag false)
  | shared job => .leave job.request.scope .lifecycle (.back (.fault fault))

end Point

namespace Thread
variable {C : Client}

def ofCode (code : Code C) : Thread C := ⟨.run code, []⟩

def ending? (thread : Thread C) : Option Ending :=
  match thread.focus, thread.frames with
  | .back (.failed cause), [] => some (.failed cause)
  | .back _, [] => some .finished
  | .unwind panic, [] => some (.panicked panic)
  | _, _ => none

end Thread
end Lifespan
