import Lifespan.Code
import Lifespan.Document
import Lifespan.Scenario.Line

-- What the lines of a scenario answer and write down, and what they share.
namespace Lifespan.Scenario

structure ShownScope where
  number : Nat
  id : ScopeId
  state : State

structure ShownObject where
  species : Species
  value : Document
  hits : Option Nat

structure Profile where
  shown : ShownScope
  count : Nat
  keys : List String
  attributes : List String

abbrev Tally := List (String × Nat)

structure Race where
  calls : Nat
  results : Tally
  panicked : Nat
  allSame : Bool
  value : Option Document

inductive Answer
  | ok
  | nothing
  | badInput
  | noHandle
  | flag (value : Bool)
  | number (value : Nat)
  | text (value : String)
  | names (values : List String)
  | document (value : Document)
  | settings (settings : Settings)
  | scope (shown : ShownScope)
  | object (shown : ShownObject)
  | profile (profile : Profile)
  | same (object identity : Bool)
  | entry (type : String) (shown : Option ShownObject)
  | stock (keys : List String)
  | drained (entries : List (String × String))
  | fault (fault : Fault)
  | failures (failures : List Failure)
  | failed (cause : Cause)
  | refused (cause : Cause)
  | panicked (message : Option String)
  | tally (results : Tally)
  | race (race : Race)
  | ring (results : Tally) (cyclic : Nat) (keys : List String)
  | thread (thread : ThreadId) (ending : Ending)
  | threads (endings : List (ThreadId × Ending))

inductive Note
  | answered (answer : Answer)
  | did (name : Document) (answer : Answer)
  | after (value : Document) (scope : ScopeId) (state : State)
  | before (value : Document) (scope : ScopeId) (state : State)
  | destroy (value : Document)
  | build (value : Document)
  | event (text : String) (listener : Option String)
  | guarding (shown : ShownScope) (active : Bool)
  | closing

structure Round where
  arrived : Nat
  calls : Nat
  results : List (Option Fault)
  objects : List InstanceRef
  panicked : Nat

def Round.empty : Round := ⟨0, 0, [], [], 0⟩

structure Memory where
  registries : Table String RegistryRef
  handles : Table String ScopeRef
  shown : List ScopeRef
  contexts : Table String Context
  stores : Table String Store
  hits : Table InstanceRef Nat
  signals : List String
  listeners : Nat
  uses : Table (Nat × Nat) Nat
  rounds : List Round

abbrev client : Client := ⟨Memory, Note, Document, Empty⟩

namespace Memory

def empty : Memory := ⟨.empty, .empty, [], .empty, .empty, .empty, [], 0, .empty, []⟩

def store (memory : Memory) (name : String) : Store := (memory.stores.get? name).getD .empty
def context (memory : Memory) (name : String) : Context := (memory.contexts.get? name).getD .empty

def setStore (memory : Memory) (name : String) (store : Store) : Memory :=
  { memory with stores := memory.stores.put name store }

def setContext (memory : Memory) (name : String) (context : Context) : Memory :=
  { memory with contexts := memory.contexts.put name context }

def haveShown (memory : Memory) (scope : ScopeRef) : Memory :=
  if memory.shown.contains scope then memory else { memory with shown := memory.shown ++ [scope] }

def number (memory : Memory) (scope : ScopeRef) : Nat := (memory.shown.idxOf scope) + 1

def hit (memory : Memory) (object : InstanceRef) : Memory :=
  { memory with hits := memory.hits.put object ((memory.hits.get? object).getD 0 + 1) }

-- The first rule for an event that has uses left.
def applicable (memory : Memory) (listener : Nat) (rules : List Rule) (text : String) : Option Nat :=
  (rules.zipIdx.find? fun (rule, index) =>
    rule.applies text && decide ((memory.uses.get? (listener, index)).getD 0 < rule.times)).map Prod.snd

def useRule (memory : Memory) (listener index : Nat) : Memory :=
  { memory with uses := memory.uses.put (listener, index) ((memory.uses.get? (listener, index)).getD 0 + 1) }

def onRound (memory : Memory) (round : Nat) (change : Round → Round) : Memory :=
  { memory with rounds := memory.rounds.modify round change }

def round (memory : Memory) (round : Nat) : Round := memory.rounds[round]?.getD .empty

end Memory
end Lifespan.Scenario
