import Lifespan.Document
import Lifespan.Record

-- A scenario is user code that is written down: lines, one after the other, some of which
-- hold further lines for factories, hooks, listeners and threads.
namespace Lifespan.Scenario

structure Species where
  label : String
  -- its full name, which is also the key of its singleton
  name : String
  hooked : Bool
  -- the kind of scope whose singleton it was declared to be
  home : Option Kind
deriving DecidableEq, Repr

-- A scope by the name it was bound to, or the scope that the lines run for.
inductive Handle
  | named (name : String)
  | self
deriving DecidableEq, Repr

inductive Form
  | plain | withScope
  | keyed (key : String)
  | strict (key : String)
deriving DecidableEq, Repr

namespace Form

def key? : Form → Option String
  | plain | withScope => none
  | keyed key | strict key => some key

def knowsScope : Form → Bool
  | withScope | strict _ => true
  | plain | keyed _ => false

def isStrict : Form → Bool
  | strict _ => true
  | _ => false

end Form

inductive Calling
  | after (scope : Handle)
  | before (scope : Handle)
  | destroy
  | malformed
deriving DecidableEq, Repr

inductive Pattern
  | any
  | exactly (text : String)
  | nothing
deriving DecidableEq, Repr

inductive Finish
  | ended | dropped
deriving DecidableEq, Repr

mutual
inductive Line where
  | mk (name : Document) (insist : Bool) (binds : Option String) (quiet : Bool) (action : Action)

inductive Action where
  -- not understood, once the handles that it names are bound
  | malformed (handles : List Handle)
  | fail (cause : Cause)
  -- the text is answered, also where the panic itself carries none
  | panic (text : String) (panic : Panic)
  | newRegistry (registry : String) (settings : Settings)
  | settings (registry : String)
  | dropRegistry (registry : String)
  | setCallback (registry : String) (name : Option String) (rules : List Rule)
  | clearCallback (registry : String)
  | begin (registry : String) (id : ScopeId)
  | beginIn (registry context : String) (id : ScopeId)
  | guarded (registry : String) (id : ScopeId) (finish : Finish) (lines : List Line)
  | finish (registry : String) (id : ScopeId)
  | lookup (registry : String) (id : ScopeId)
  | require (registry : String) (id : ScopeId)
  | current (registry context : String) (kind : Kind)
  | requireCurrent (registry context : String) (kind : Kind)
  | singleton (registry context : String) (kind : Kind) (making : Making)
  | singletonIf (registry context : String) (kind : Kind) (species : Species)
  | declared (registry context : String) (species : Species) (kind : Kind)
  | declaredIf (registry context : String) (species : Species) (kind : Kind)
  | declaredIsInstantiated (registry context : String) (species : Species) (kind : Kind)
  | activeCount (registry : String) (kind : Kind)
  | ids (registry : String) (kind : Kind)
  | shutdown (registry : String)
  | info (scope : Handle)
  | debug (scope : Handle)
  | same (one other : Handle)
  | get (scope : Handle) (form : Form) (making : Making)
  | getIf (scope : Handle) (key : Option String) (species : Species)
  | isInstantiated (scope : Handle) (species : Species)
  | keys (scope : Handle)
  | count (scope : Handle)
  | setAttribute (scope : Handle) (name type : String) (value : Document)
  | getAttribute (scope : Handle) (name type : String)
  | removeAttribute (scope : Handle) (name : String)
  | attributeNames (scope : Handle)
  | bindContext (scope : Handle) (context : String)
  | boundInContext (context : String) (kind : Kind)
  | clearContext (context : String) (kind : Kind)
  | clearWholeContext (context : String)
  | copyContext (source target : String)
  | storeInsert (store key : String) (source : Option String) (making : Making)
  | storeGet (store key : String) (species : Species)
  | storeContains (store key : String)
  | storeInfo (store : String)
  | storeDrain (store : String)
  | storeHook (store key : String) (calling : Calling)
  | destroyAll (scope : Handle) (store : String)
  | spawn (lines : List Line)
  | threads (bodies : List (List Line))
  | signal (name : String)
  | await (name : String)
  | awaitState (scope : Handle) (state : State)
  | sleep (time : Nat)
  | note (text : String)
  | raceBegin (id : ScopeId) (threads : Nat)
  | raceEnd (id : ScopeId) (threads : Nat)
  | raceGet (scope : Handle) (key : String) (threads failing : Nat) (panics : Bool) (making : Making)
  | ring (scope : Handle) (threads : Nat) (making : Making)

inductive Making where
  | mk (species : Species) (value : Document) (body after before destroy : List Line)

inductive Rule where
  | mk (pattern : Pattern) (times : Nat) (lines : List Line)
end

instance : Inhabited Action := ⟨.malformed []⟩
instance : Inhabited Line := ⟨.mk .null false none false default⟩

namespace Making

def species : Making → Species
  | mk species .. => species

def value : Making → Document
  | mk _ value .. => value

end Making

namespace Rule

def applies : Rule → String → Bool
  | mk .any _ _, _ => true
  | mk (.exactly wanted) _ _, text => wanted == text
  | mk .nothing _ _, _ => false

def times : Rule → Nat
  | mk _ times _ => times

end Rule
end Lifespan.Scenario
