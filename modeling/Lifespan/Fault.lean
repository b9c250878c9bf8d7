import Lifespan.Reference

-- Why an operation was refused or went wrong. A fault can carry a cause, and a cause
-- can again be a fault: a factory may pass on what it met.
namespace Lifespan

inductive Phase
  | beforeDestroy | destroy
deriving DecidableEq, Repr

namespace Phase

def name : Phase → String
  | beforeDestroy => "before-destroy"
  | destroy => "destroy"

def all : List Phase := [beforeDestroy, destroy]

def ofName? (text : String) : Option Phase := all.find? (·.name == text)

end Phase

mutual
inductive Fault where
  | duplicate (scope : ScopeId)
  | unknown (scope : ScopeId)
  | inactive (scope : ScopeId)
  | mismatch (scope : ScopeId) (key expected : String)
  | cyclic (scope : ScopeId) (key : String)
  | construction (scope : ScopeId) (key : String) (cause : Cause)
  | destruction (failures : List Failure)

-- What user code gives as the reason: its own words with the reasons behind them, a
-- fault it met, or everything that a shutdown collected.
inductive Cause where
  | words (message : String) (behind : List String)
  | fault (fault : Fault)
  | shutdown (failures : List Failure)

inductive Failure where
  | hook (scope : ScopeId) (key : String) (phase : Phase) (cause : Cause)
end

instance : Inhabited Fault := ⟨.destruction []⟩
instance : Inhabited Cause := ⟨.words "" []⟩

namespace Failure

def scope : Failure → ScopeId
  | hook scope .. => scope
def key : Failure → String
  | hook _ key .. => key
def phase : Failure → Phase
  | hook _ _ phase _ => phase
def cause : Failure → Cause
  | hook _ _ _ cause => cause

end Failure

def destructionHeadline (count : Nat) : String :=
  toString count ++ " singleton hook(s) failed during destruction"

mutual
def Fault.message : Fault → String
  | .duplicate scope => "scope " ++ scope.text ++ " is already active"
  | .unknown scope => "scope " ++ scope.text ++ " is not active or not registered"
  | .inactive scope => "scope " ++ scope.text ++ " is no longer active"
  | .mismatch scope key expected =>
    "singleton '" ++ key ++ "' in scope " ++ scope.text ++ " is not of type " ++ expected
  | .cyclic scope key => "construction of singleton '" ++ key ++ "' in scope " ++ scope.text ++ " waits on itself"
  | .construction scope key cause =>
    "failed to construct singleton '" ++ key ++ "' in scope " ++ scope.text ++ ": " ++ cause.message
  | .destruction failures => destructionHeadline failures.length ++ listed failures

def Cause.message : Cause → String
  | .words message _ => message
  | .fault fault => fault.message
  | .shutdown failures => destructionHeadline failures.length ++ listed failures

def Failure.message : Failure → String
  | .hook scope key phase cause =>
    phase.name ++ " hook of '" ++ key ++ "' in scope " ++ scope.text ++ " failed: " ++ cause.message

def listed : List Failure → String
  | [] => ""
  | failure :: rest => "; " ++ failure.message ++ listed rest
end

def destructionMessage (failures : List Failure) : String :=
  destructionHeadline failures.length ++ listed failures

def failedKeys (failures : List Failure) : List String := failures.map Failure.key

-- What stands behind a fault or a cause, nearest first. Collected failures stand side
-- by side, so there is nothing behind them.
mutual
def Fault.chain : Fault → List String
  | .construction _ _ cause => cause.message :: cause.chain
  | _ => []

def Cause.chain : Cause → List String
  | .words _ behind => behind
  | .fault fault => fault.chain
  | .shutdown _ => []
end

def Failure.chain (failure : Failure) : List String := failure.cause.message :: failure.cause.chain

def Fault.title : Fault → String
  | .duplicate _ => "DuplicateScope"
  | .unknown _ => "UnknownScope"
  | .inactive _ => "ScopeInactive"
  | .mismatch .. => "TypeMismatch"
  | .cyclic .. => "CyclicConstruction"
  | .construction .. => "Construction"
  | .destruction _ => "Destruction"

def Fault.scope? : Fault → Option ScopeId
  | .duplicate scope | .unknown scope | .inactive scope => some scope
  | .mismatch scope .. | .cyclic scope .. | .construction scope .. => some scope
  | .destruction failures => failures.head?.map Failure.scope

-- A payload that is no text leaves nothing to say.
structure Panic where
  message : Option String
deriving DecidableEq, Repr, Inhabited

def Panic.asHookCause : Panic → Cause
  | ⟨some message⟩ => .words ("hook panicked: " ++ message) []
  | ⟨none⟩ => .words "hook panicked" []

end Lifespan
