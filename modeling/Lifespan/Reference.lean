import Lifespan.Kind
import Lifespan.Text.Quoted

-- How scopes and all else that is shared are named and referred to. A reference is made of what it
-- refers to, so that what one part of a program makes has no influence on the references of another.
namespace Lifespan

structure ScopeId where
  kind : Kind
  id : String
deriving DecidableEq, Repr, Inhabited

namespace ScopeId

def globalId : String := "global"

def text (scope : ScopeId) : String := scope.kind.name ++ ":" ++ scope.id

def inspected (scope : ScopeId) : String :=
  "ScopeId \x7b kind: " ++ scope.kind.title ++ ", id: " ++ Text.quoted scope.id ++ " \x7d"

def isGlobalId (scope : ScopeId) : Bool := scope.id == globalId

end ScopeId

-- A scope as it is shown to whoever debugs; the moment of its creation stays hidden.
def inspectedScope (scope : ScopeId) (state : State) : String :=
  "Scope \x7b id: " ++ scope.inspected ++ ", state: " ++ state.title ++ ", created_at: <time>, .. \x7d"

abbrev RegistryRef := Nat
abbrev GateRef := Nat
abbrev ThreadId := Nat

-- A scope of this registry and identity, after so many earlier ones.
structure ScopeRef where
  registry : RegistryRef
  id : ScopeId
  turn : Nat
deriving DecidableEq, Repr, Inhabited

inductive InstanceRef
  -- made by a factory of the scope, after so many others
  | kept (scope : ScopeRef) (index : Nat)
  | loose (index : Nat)
deriving DecidableEq, Repr

structure Context where
  bound : Kind → Option ScopeRef

namespace Context

def empty : Context := ⟨fun _ => none⟩

instance : Inhabited Context := ⟨empty⟩

def bind (context : Context) (scope : ScopeRef) : Context :=
  ⟨fun kind => if kind = scope.id.kind then some scope else context.bound kind⟩

def clear (context : Context) (kind : Kind) : Context :=
  ⟨fun other => if other = kind then none else context.bound other⟩

def wanted (context : Context) (kind : Kind) : ScopeId := ⟨kind, (context.bound kind).elim "<unbound>" (·.id.id)⟩

end Context
end Lifespan
