import Lifespan.World

-- The ways in which one step of a thread changes what all threads share. Each is a single
-- moment: no other thread sees the middle of it.
namespace Lifespan

inductive Effect (C : Client)
  | still
  | remember (update : C.Memory → C.Memory)
  | establish (settings : Settings)
  | listen (registry : RegistryRef) (listener : Option (Event → Code C))
  | register (registry : RegistryRef) (id : ScopeId)
  | forget (registry : RegistryRef) (scope : ScopeRef)
  | retire (scope : ScopeRef)
  | mark (scope : ScopeRef)
  | share (scope : ScopeRef)
  | unshare (scope : ScopeRef)
  | exclude (scope : ScopeRef)
  | reopen (scope : ScopeRef)
  | empty (scope : ScopeRef)
  | clearGates (scope : ScopeRef)
  | queue (scope : ScopeRef) (key : String)
  | seize (scope : ScopeRef) (gate : GateRef)
  | yield (scope : ScopeRef) (gate : GateRef)
  | start (scope : ScopeRef) (key : String)
  | finish (scope : ScopeRef) (key : String)
  | make (made : Instance C)
  | keep (scope : ScopeRef) (key : String) (made : Instance C)
  | setAttribute (scope : ScopeRef) (name : String) (value : Attribute C)
  | removeAttribute (scope : ScopeRef) (name : String)
  | clearAttributes (scope : ScopeRef)

namespace World
variable {C : Client}

def onScope (world : World C) (scope : ScopeRef) (change : Scope C → Scope C) : World C :=
  { world with scopes := world.scopes.modify scope change }

def nextScope (world : World C) (registry : RegistryRef) (id : ScopeId) : ScopeRef :=
  ⟨registry, id, ((world.registries[registry]?).bind (·.begun.get? id)).getD 0⟩

def nextInstance (world : World C) (scope : ScopeRef) : InstanceRef :=
  .kept scope ((world.scope? scope).elim 0 (·.instances.length))

def onRegistry (world : World C) (registry : RegistryRef) (change : Registry C → Registry C) : World C :=
  { world with registries := world.registries.modify registry change }

end World

namespace Scope
variable {C : Client}

def queued (cell : Scope C) (key : String) (me : ThreadId) : Scope C :=
  { cell with
    gates := (cell.gates.queue key me cell.turns.length).2
    turns := if cell.gates.gates.contains key then cell.turns else cell.turns ++ [none] }

-- A key that is taken stays with what it has.
def kept (cell : Scope C) (scope : ScopeRef) (key : String) (made : Instance C) : Scope C :=
  { cell with
    store := (cell.store.insert key ⟨.kept scope cell.instances.length, made.type⟩).getD cell.store
    instances := cell.instances ++ [made] }

end Scope

namespace Effect
variable {C : Client}

def apply (me : ThreadId) (world : World C) : Effect C → World C
  | still => world
  | remember update => { world with memory := update world.memory }
  | establish settings => { world with registries := world.registries ++ [⟨settings, .empty, none, .empty⟩] }
  | listen registry listener => world.onRegistry registry fun cell => { cell with listener }
  | register registry id =>
    { world.onRegistry registry fun cell =>
        { cell with
          directory := cell.directory.place (world.nextScope registry id)
          begun := cell.begun.put id ((world.nextScope registry id).turn + 1) }
      with scopes := world.scopes.put (world.nextScope registry id) .fresh }
  | forget registry scope =>
    world.onRegistry registry fun cell => { cell with directory := cell.directory.forget scope }
  | retire scope => world.onScope scope fun cell => { cell with state := .destructionPending }
  | mark scope => world.onScope scope fun cell => { cell with state := .destroyed }
  | share scope => world.onScope scope fun cell => { cell with sharing := me :: cell.sharing }
  | unshare scope => world.onScope scope fun cell => { cell with sharing := cell.sharing.erase me }
  | exclude scope => world.onScope scope fun cell => { cell with exclusive := some me }
  | reopen scope => world.onScope scope fun cell => { cell with exclusive := none }
  | empty scope => world.onScope scope fun cell => { cell with store := .empty }
  | clearGates scope => world.onScope scope fun cell => { cell with gates := .empty }
  | queue scope key => world.onScope scope fun cell => cell.queued key me
  | seize scope gate => world.onScope scope fun cell => { cell with turns := cell.turns.set gate (some me) }
  | yield scope gate => world.onScope scope fun cell => { cell with turns := cell.turns.set gate none }
  | start scope key => world.onScope scope fun cell => { cell with gates := cell.gates.start key me }
  | finish scope key => world.onScope scope fun cell => { cell with gates := cell.gates.finish key me }
  | make made => { world with loose := world.loose ++ [made] }
  | keep scope key made => world.onScope scope fun cell => cell.kept scope key made
  | setAttribute scope name value =>
    world.onScope scope fun cell => { cell with attributes := cell.attributes.put name value }
  | removeAttribute scope name =>
    world.onScope scope fun cell => { cell with attributes := cell.attributes.erase name }
  | clearAttributes scope => world.onScope scope fun cell => { cell with attributes := .empty }

end Effect
end Lifespan
