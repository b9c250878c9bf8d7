import Lifespan.Reference
import Lifespan.Table

-- Where a registry keeps its scopes: one place each for the global and the application
-- scope, and a place per id for sessions and requests.
namespace Lifespan

structure Directory where
  global : Option ScopeRef
  application : Option ScopeRef
  sessions : Table String ScopeRef
  requests : Table String ScopeRef

namespace Directory

def empty : Directory := ⟨none, none, .empty, .empty⟩

instance : Inhabited Directory := ⟨empty⟩

def occupant (directory : Directory) (id : ScopeId) : Option ScopeRef :=
  match id.kind with
  | .global => directory.global
  | .application => directory.application
  | .session => directory.sessions.get? id.id
  | .request => directory.requests.get? id.id

def place (directory : Directory) (scope : ScopeRef) : Directory :=
  match scope.id.kind with
  | .global => { directory with global := some scope }
  | .application => { directory with application := some scope }
  | .session => { directory with sessions := directory.sessions.put scope.id.id scope }
  | .request => { directory with requests := directory.requests.put scope.id.id scope }

def vacate (directory : Directory) (id : ScopeId) : Directory :=
  match id.kind with
  | .global => { directory with global := none }
  | .application => { directory with application := none }
  | .session => { directory with sessions := directory.sessions.erase id.id }
  | .request => { directory with requests := directory.requests.erase id.id }

-- Gives up the place only if it is still held by the scope that leaves.
def forget (directory : Directory) (scope : ScopeRef) : Directory :=
  if directory.occupant scope.id = some scope then directory.vacate scope.id else directory

def residents (directory : Directory) : Kind → List ScopeRef
  | .global => directory.global.toList
  | .application => directory.application.toList
  | .session => directory.sessions.entries.map Prod.snd
  | .request => directory.requests.entries.map Prod.snd

end Directory
end Lifespan
