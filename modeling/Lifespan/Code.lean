import Lifespan.Record
import Lifespan.Store

-- What a user of the registries writes: factories, hooks, listeners and whatever calls them.
-- User code is a tree of calls. A call hands its reply to the code that follows, so a panic
-- that comes out of a call is a reply too, and code that does not care passes it on.
namespace Lifespan

structure Client where
  Memory : Type
  Note : Type
  Datum : Type
  -- places in its text that can be jumped to, with what they need to know
  Label : Type

structure Attribute (C : Client) where
  type : String
  datum : C.Datum

structure Guard where
  registry : RegistryRef
  scope : ScopeRef
deriving DecidableEq, Repr

inductive HookCall
  | after (object : InstanceRef) (scope : ScopeRef)
  | before (object : InstanceRef) (scope : ScopeRef)
  | destroy (object : InstanceRef)
deriving DecidableEq, Repr

def HookCall.object : HookCall → InstanceRef
  | after object _ | before object _ | destroy object => object

inductive Op (C : Client)
  | establish (settings : Settings)
  | settings (registry : RegistryRef)
  | silence (registry : RegistryRef)
  | begin (registry : RegistryRef) (scope : ScopeId)
  | finish (registry : RegistryRef) (scope : ScopeId)
  | endGuard (guard : Guard)
  | dropGuard (guard : Guard)
  | lookup (registry : RegistryRef) (scope : ScopeId)
  | require (registry : RegistryRef) (scope : ScopeId)
  | current (registry : RegistryRef) (context : Context) (kind : Kind)
  | requireCurrent (registry : RegistryRef) (context : Context) (kind : Kind)
  | activeCount (registry : RegistryRef) (kind : Kind)
  | ids (registry : RegistryRef) (kind : Kind)
  | shutdown (registry : RegistryRef)
  | drop (registry : RegistryRef)
  | state (scope : ScopeRef)
  | keys (scope : ScopeRef)
  | count (scope : ScopeRef)
  | peek (scope : ScopeRef) (key type : String)
  | holds (scope : ScopeRef) (key : String)
  | setAttribute (scope : ScopeRef) (name : String) (value : Attribute C)
  | getAttribute (scope : ScopeRef) (name type : String)
  | removeAttribute (scope : ScopeRef) (name : String)
  | attributeNames (scope : ScopeRef)
  | contents (object : InstanceRef)
  | destroyAll (scope : ScopeRef) (store : Store)
  | invoke (call : HookCall)

inductive Ending
  | finished
  | failed (cause : Cause)
  | panicked (panic : Panic)

inductive Reply (C : Client)
  | done
  | nothing
  | registry (registry : RegistryRef)
  | scope (scope : ScopeRef)
  | object (object : InstanceRef)
  | contents (datum : C.Datum)
  | state (state : State)
  | settings (settings : Settings)
  | flag (value : Bool)
  | number (value : Nat)
  | names (values : List String)
  | fault (fault : Fault)
  -- all that failed in a teardown or a shutdown; nothing failed if the list is empty
  | failures (failures : List Failure)
  | failed (cause : Cause)
  | panicked (panic : Panic)
  | threads (endings : List (ThreadId × Ending))

structure Hooks (Body : Type) where
  after : ScopeRef → Body
  before : ScopeRef → Body
  destroy : Body

def Hooks.code {Body : Type} (hooks : Hooks Body) : HookCall → Body
  | .after _ scope => hooks.after scope
  | .before _ scope => hooks.before scope
  | .destroy _ => hooks.destroy

structure Request where
  scope : ScopeRef
  key : String
  type : String
deriving DecidableEq, Repr

inductive Code (C : Client) where
  | done
  | built (datum : C.Datum) (hooks : Hooks (Code C))
  | fail (cause : Cause)
  | panic (panic : Panic)
  | jump (label : C.Label)
  | note (note : C.Note) (next : Code C)
  -- one step on the shared memory; what follows sees it as it was
  | access (update : C.Memory → C.Memory) (next : C.Memory → Code C)
  | await (ready : C.Memory → Bool) (next : Code C)
  | awaitState (scope : ScopeRef) (state : State) (next : Reply C → Code C)
  | pause (time : Nat) (next : Code C)
  | call (op : Op C) (next : Reply C → Code C)
  | listen (registry : RegistryRef) (listener : Event → Code C) (next : Code C)
  | make (type : String) (datum : C.Datum) (hooks : Hooks (Code C)) (next : Reply C → Code C)
  | resolve (request : Request) (factory : ScopeRef → Code C) (next : Reply C → Code C)
  | fork (count : Nat) (body : Nat → Code C) (next : Reply C → Code C)

instance (C : Client) : Inhabited (Code C) := ⟨.done⟩

namespace Code
variable {C : Client}

-- The singleton of a type stands under the type's name, in the scope that is current for its kind.
def singleton (registry : RegistryRef) (context : Context) (kind : Kind) (type : String) (factory : Code C)
    (next : Reply C → Code C) : Code C :=
  .call (.requireCurrent registry context kind) fun
    | .scope scope => .resolve ⟨scope, type, type⟩ (fun _ => factory) next
    | reply => next reply

def singletonIf (registry : RegistryRef) (context : Context) (kind : Kind) (type : String) (next : Reply C → Code C) :
    Code C :=
  .call (.current registry context kind) fun
    | .scope scope => .call (.peek scope type type) next
    | reply => next reply

end Code

structure Declared (C : Client) where
  type : String
  kind : Kind
  factory : Code C

namespace Declared
variable {C : Client}

def get (declared : Declared C) (registry : RegistryRef) (context : Context) (next : Reply C → Code C) : Code C :=
  .singleton registry context declared.kind declared.type declared.factory next

def getIf (declared : Declared C) (registry : RegistryRef) (context : Context) (next : Reply C → Code C) : Code C :=
  .singletonIf registry context declared.kind declared.type next

def isInstantiated (declared : Declared C) (registry : RegistryRef) (context : Context) (next : Reply C → Code C) : Code C :=
  declared.getIf registry context fun reply => next (.flag (reply matches .object _))

end Declared

end Lifespan
