import Lifespan.Reference
import Lifespan.Table

-- Who constructs what in one scope. A thread blocks on one gate at a time, so following
-- the owner of the wanted key to the key that this owner waits for, and on, either ends or
-- comes back to the caller. If it comes back, waiting would never end.
namespace Lifespan

structure Gates where
  gates : Table String GateRef
  owners : Table String ThreadId
  waiting : Table ThreadId String
  building : Table ThreadId Nat

namespace Gates

def empty : Gates := ⟨.empty, .empty, .empty, .empty⟩

instance : Inhabited Gates := ⟨empty⟩

def nextOwner (table : Gates) (thread : ThreadId) : Option ThreadId :=
  (table.waiting.get? thread).bind table.owners.get?

def walk (table : Gates) (me : ThreadId) : Nat → Option ThreadId → Bool
  | 0, _ => false
  | _ + 1, none => false
  | looks + 1, some thread => if thread = me then true else walk table me looks (table.nextOwner thread)

-- One look more than there are waiting threads is enough to see every owner on the way.
def waitsOn (table : Gates) (key : String) (me : ThreadId) : Bool :=
  table.walk me (table.waiting.size + 1) (table.owners.get? key)

def queue (table : Gates) (key : String) (me : ThreadId) (fresh : GateRef) : GateRef × Gates :=
  match table.gates.get? key with
  | some gate => (gate, { table with waiting := table.waiting.put me key })
  | none => (fresh, { table with waiting := table.waiting.put me key, gates := table.gates.put key fresh })

def depth (table : Gates) (thread : ThreadId) : Nat := (table.building.get? thread).getD 0

def isBuilding (table : Gates) (thread : ThreadId) : Bool := table.building.contains thread

def start (table : Gates) (key : String) (me : ThreadId) : Gates :=
  { table with
    waiting := table.waiting.erase me
    owners := table.owners.put key me
    building := table.building.put me (table.depth me + 1) }

def finish (table : Gates) (key : String) (me : ThreadId) : Gates :=
  { table with
    owners := table.owners.erase key
    building :=
      match table.building.get? me with
      | none => table.building
      | some depth => if depth - 1 = 0 then table.building.erase me else table.building.put me (depth - 1) }

end Gates
end Lifespan
