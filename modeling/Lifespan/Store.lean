import Lifespan.Reference
import Lifespan.Table

-- The singletons of one scope: what stands under each key, and in which order the keys came.
namespace Lifespan

structure Entry where
  object : InstanceRef
  type : String
deriving DecidableEq, Repr

def Entry.downcast (entry : Entry) (type : String) : Option InstanceRef :=
  if entry.type = type then some entry.object else none

structure Store where
  entries : Table String Entry
  order : List String

namespace Store

def empty : Store := ⟨.empty, []⟩

instance : Inhabited Store := ⟨empty⟩

def get? (store : Store) (key : String) : Option Entry := store.entries.get? key
def contains (store : Store) (key : String) : Bool := store.entries.contains key
def keys (store : Store) : List String := store.order
def length (store : Store) : Nat := store.order.length
def isEmpty (store : Store) : Bool := store.order.isEmpty

-- Refused, with nothing changed, if the key is taken.
def insert (store : Store) (key : String) (entry : Entry) : Option Store :=
  if store.contains key then none else some ⟨store.entries.put key entry, store.order ++ [key]⟩

def takeOut : List String → Table String Entry → List (String × Entry) × Table String Entry
  | [], left => ([], left)
  | key :: rest, left =>
    match left.get? key with
    | none => takeOut rest left
    | some entry => ((key, entry) :: (takeOut rest (left.erase key)).1, (takeOut rest (left.erase key)).2)

def drainNewestFirst (store : Store) : List (String × Entry) × Store :=
  ((takeOut store.order.reverse store.entries).1, ⟨(takeOut store.order.reverse store.entries).2, []⟩)

end Store
end Lifespan
