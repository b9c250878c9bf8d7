import Lifespan.Event
import Lifespan.Fault

-- The log. A record is kept as what happened; its level, message and fields follow.
namespace Lifespan

structure Settings where
  -- every transition is logged as news instead of as a detail
  lifecycleDebugging : Bool := false
  -- a shutdown names each scope that it still finds alive
  warnOnLeftoverScopes : Bool := true
deriving DecidableEq, Repr

instance : Inhabited Settings := ⟨{}⟩

def Settings.isDefault (settings : Settings) : Bool := settings == {}

inductive Level
  | debug | info | warn | error
deriving DecidableEq, Repr

def Level.name : Level → String
  | debug => "DEBUG"
  | info => "INFO"
  | warn => "WARN"
  | error => "ERROR"

inductive Record
  | lifecycle (event : Event) (debugging : Bool)
  | destroyFailed (scope : ScopeId) (key : String)
  | endedWithFailures (scope : ScopeId) (failures : Nat)
  | hookFailed (failure : Failure)
  | constructionFailed (scope : ScopeId) (key : String) (cause : Cause)
  | stillAlive (scope : ScopeId)
  | guardFailed (scope : ScopeId) (fault : Fault)
  | dropFailed (failures : List Failure)

namespace Record

def level : Record → Level
  | lifecycle _ debugging => if debugging then .info else .debug
  | constructionFailed .. => .debug
  | dropFailed .. => .error
  | _ => .warn

def message : Record → String
  | lifecycle .. => "scope lifecycle"
  | destroyFailed .. => "singleton destruction failed"
  | endedWithFailures .. => "scope destroyed with failures"
  | hookFailed .. => "singleton hook failed"
  | constructionFailed .. => "singleton construction failed"
  | stillAlive .. => "scope still alive at shutdown"
  | guardFailed .. => "failed to end guarded scope"
  | dropFailed .. => "singleton destruction failed while dropping the scope registry"

def fields : Record → List (String × String)
  | lifecycle event _ => [("event", event.text)]
  | destroyFailed scope key => [("scope", scope.text), ("key", key)]
  | endedWithFailures scope failures => [("scope", scope.text), ("failures", toString failures)]
  | hookFailed failure =>
    [("scope", failure.scope.text), ("key", failure.key), ("phase", failure.phase.name),
     ("error", failure.cause.message)]
  | constructionFailed scope key cause =>
    [("scope", scope.text), ("key", key), ("error", cause.message)]
  | stillAlive scope => [("scope", scope.text)]
  | guardFailed scope fault => [("scope", scope.text), ("error", fault.message)]
  | dropFailed failures => [("error", destructionMessage failures)]

-- A failure is always a warning; anything else is as loud as the settings ask.
def ofEvent (settings : Settings) : Event → Record
  | .destroyFailed scope key => destroyFailed scope key
  | .ended scope (failures + 1) => endedWithFailures scope (failures + 1)
  | event => lifecycle event settings.lifecycleDebugging

end Record
end Lifespan
