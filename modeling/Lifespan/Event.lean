import Lifespan.Reference

-- What a registry tells its listener about the lives of its scopes.
namespace Lifespan

inductive Event
  | began (scope : ScopeId)
  | ended (scope : ScopeId) (failures : Nat)
  | created (scope : ScopeId) (key : String)
  | destroyed (scope : ScopeId) (key : String)
  | destroyFailed (scope : ScopeId) (key : String)
  | shutdown (remaining : Nat)
deriving DecidableEq, Repr

namespace Event

def scope? : Event → Option ScopeId
  | began scope | ended scope _ | created scope _ | destroyed scope _ | destroyFailed scope _ => some scope
  | shutdown _ => none

def braced (name fields : String) : String := name ++ " \x7b " ++ fields ++ " \x7d"

def text : Event → String
  | began scope => braced "begin" ("scope: " ++ scope.text)
  | ended scope failures => braced "end" ("scope: " ++ scope.text ++ ", failures: " ++ toString failures)
  | created scope key => braced "created" ("scope: " ++ scope.text ++ ", key: " ++ key)
  | destroyed scope key => braced "destroyed" ("scope: " ++ scope.text ++ ", key: " ++ key)
  | destroyFailed scope key => braced "destroy failed" ("scope: " ++ scope.text ++ ", key: " ++ key)
  | shutdown remaining => braced "shutdown" ("remaining: " ++ toString remaining)

end Event
end Lifespan
