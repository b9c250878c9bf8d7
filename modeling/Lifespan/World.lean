import Lifespan.Code
import Lifespan.Directory
import Lifespan.Gates

-- Everything that threads share.
namespace Lifespan

structure Instance (C : Client) where
  type : String
  datum : C.Datum
  hooks : Hooks (Code C)

structure Scope (C : Client) where
  state : State
  -- threads with a construction in flight, as often as they have one
  sharing : List ThreadId
  -- the thread that ends the scope, once no construction is in flight
  exclusive : Option ThreadId
  store : Store
  gates : Gates
  turns : List (Option ThreadId)
  attributes : Table String (Attribute C)
  -- all that its factories ever made
  instances : List (Instance C)

structure Registry (C : Client) where
  settings : Settings
  directory : Directory
  listener : Option (Event → Code C)
  begun : Table ScopeId Nat

-- What happened, for whoever reads it later. Nothing that runs looks at it.
inductive Item (C : Client)
  | note (note : C.Note)
  | called (op : Op C)
  | logged (record : Record)
  | emitted (registry : RegistryRef) (event : Event)
  | delivered (registry : RegistryRef) (event : Event)
  | listenerPanicked (registry : RegistryRef) (event : Event)
  | factory (scope : ScopeRef) (key : String)
  | stored (scope : ScopeRef) (key : String) (object : InstanceRef)
  | hook (call : HookCall)

structure World (C : Client) where
  program : C.Label → Code C
  memory : C.Memory
  registries : List (Registry C)
  -- a scope goes on reporting to its registry's listener when the registry is gone
  scopes : Table ScopeRef (Scope C)
  loose : List (Instance C)
  -- newest first, each with the thread it happened on
  history : List (ThreadId × Item C)

namespace Scope
variable {C : Client}

def created : Scope C where
  state := .created
  sharing := []
  exclusive := none
  store := .empty
  gates := .empty
  turns := []
  attributes := .empty
  instances := []

def activated (scope : Scope C) : Scope C := if scope.state = .created then { scope with state := .active } else scope

-- A scope is made and activated by whoever holds its place in the registry, so nobody finds one that is
-- only created.
def fresh : Scope C := created.activated

theorem fresh_eq : (fresh : Scope C) = ⟨.active, [], none, .empty, .empty, [], .empty, []⟩ := rfl

def isActive (scope : Scope C) : Bool := scope.state = .active
def isDestroyed (scope : Scope C) : Bool := scope.state = .destroyed

end Scope

namespace World
variable {C : Client}

def initial (program : C.Label → Code C) (memory : C.Memory) : World C := ⟨program, memory, [], .empty, [], []⟩

def scope? (world : World C) (scope : ScopeRef) : Option (Scope C) := world.scopes.get? scope

def instance? (world : World C) : InstanceRef → Option (Instance C)
  | .kept scope index => (world.scope? scope).bind (·.instances[index]?)
  | .loose index => world.loose[index]?

def isAlive (world : World C) (scope : ScopeRef) : Bool := (world.scope? scope).any fun cell => !cell.isDestroyed

def isActive (world : World C) (scope : ScopeRef) : Bool := (world.scope? scope).any Scope.isActive

def occupant (world : World C) (registry : RegistryRef) (id : ScopeId) : Option ScopeRef :=
  (world.registries[registry]?).bind fun cell => cell.directory.occupant id

-- The scope registered under an identity. The one place of a kind may be held under another id.
def registered (world : World C) (registry : RegistryRef) (id : ScopeId) : Option ScopeRef :=
  (world.occupant registry id).filter fun scope => !id.kind.isSingleSlot || scope.id.id == id.id

def lookup (world : World C) (registry : RegistryRef) (id : ScopeId) : Option ScopeRef :=
  (world.registered registry id).filter world.isActive

-- What is bound wins, even if it has ended; only without a binding the one global or
-- application scope is current.
def current (world : World C) (registry : RegistryRef) (context : Context) (kind : Kind) : Option ScopeRef :=
  match context.bound kind with
  | some scope => if world.isActive scope then some scope else none
  | none => if kind.isSingleSlot then (world.occupant registry ⟨kind, ""⟩).filter world.isActive else none

def living (world : World C) (registry : RegistryRef) (kind : Kind) : List ScopeRef :=
  ((world.registries[registry]?).elim [] fun cell => cell.directory.residents kind).filter world.isAlive

def activeCount (world : World C) (registry : RegistryRef) (kind : Kind) : Nat :=
  (world.living registry kind).length

def ids (world : World C) (registry : RegistryRef) (kind : Kind) : List String :=
  Text.sorted ((world.living registry kind).map (·.id.id))

def leftovers (world : World C) (registry : RegistryRef) : List ScopeId :=
  Kind.all.reverse.flatMap fun kind => (world.ids registry kind).map (ScopeId.mk kind)

def read (world : World C) : Op C → Option (Reply C)
  | .settings registry => (world.registries[registry]?).map fun cell => .settings cell.settings
  | .lookup registry id => some ((world.lookup registry id).elim .nothing .scope)
  | .require registry id => some ((world.lookup registry id).elim (.fault (.unknown id)) .scope)
  | .current registry context kind => some ((world.current registry context kind).elim .nothing .scope)
  | .requireCurrent registry context kind =>
    some ((world.current registry context kind).elim (.fault (.unknown (context.wanted kind))) .scope)
  | .activeCount registry kind => some (.number (world.activeCount registry kind))
  | .ids registry kind => some (.names (world.ids registry kind))
  | .state scope => (world.scope? scope).map fun cell => .state cell.state
  | .keys scope => (world.scope? scope).map fun cell => .names cell.store.keys
  | .count scope => (world.scope? scope).map fun cell => .number cell.store.length
  | .getAttribute scope name type =>
    (world.scope? scope).map fun cell =>
      match cell.attributes.get? name with
      | some value => if value.type = type then .contents value.datum else .nothing
      | none => .nothing
  | .attributeNames scope => (world.scope? scope).map fun cell => .names (Text.sorted cell.attributes.keys)
  | .contents object => (world.instance? object).map fun cell => .contents cell.datum
  | _ => none

end World
end Lifespan
