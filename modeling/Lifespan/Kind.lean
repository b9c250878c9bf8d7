-- The four lifetimes a scope can be bound to, outermost first, and the states it
-- moves through. Both are linearly ordered by their position.
namespace Lifespan

inductive Kind
  | global | application | session | request
deriving DecidableEq, Repr, Inhabited

namespace Kind

def all : List Kind := [global, application, session, request]

def position : Kind → Nat
  | global => 0
  | application => 1
  | session => 2
  | request => 3

def compare (a b : Kind) : Ordering := Ord.compare a.position b.position

def outlives (a b : Kind) : Bool := decide (a.position ≤ b.position)

-- A registry has one place for such a kind, whatever the id.
def isSingleSlot : Kind → Bool
  | global | application => true
  | session | request => false

def name : Kind → String
  | global => "global"
  | application => "application"
  | session => "session"
  | request => "request"

def title : Kind → String
  | global => "Global"
  | application => "Application"
  | session => "Session"
  | request => "Request"

def ofName? (text : String) : Option Kind := all.find? (·.name == text)

theorem mem_all (kind : Kind) : kind ∈ all := by cases kind <;> decide

theorem position_injective {a b : Kind} (same : a.position = b.position) : a = b := by
  cases a <;> cases b <;> first | rfl | cases same

theorem ofName?_name (kind : Kind) : ofName? kind.name = some kind := by cases kind <;> decide

end Kind

inductive State
  | created | active | destructionPending | destroyed
deriving DecidableEq, Repr, Inhabited

namespace State

def number : State → Nat
  | created => 0
  | active => 1
  | destructionPending => 2
  | destroyed => 3

def compare (a b : State) : Ordering := Ord.compare a.number b.number

def name : State → String
  | created => "created"
  | active => "active"
  | destructionPending => "destruction pending"
  | destroyed => "destroyed"

def title : State → String
  | created => "Created"
  | active => "Active"
  | destructionPending => "DestructionPending"
  | destroyed => "Destroyed"

def all : List State := [created, active, destructionPending, destroyed]

def ofName? (text : String) : Option State := all.find? (·.name == text)

theorem number_injective {a b : State} (same : a.number = b.number) : a = b := by
  cases a <;> cases b <;> first | rfl | cases same

end State
end Lifespan
