import Lifespan.Decimal

-- Structured data without a schema: what a configuration file holds, and what an
-- instance or an attribute may carry. The fields of a mapping stand in order of their names.
namespace Lifespan

inductive Document
  | null
  | boolean (value : Bool)
  -- whole numbers that fit a machine word, with or without a sign
  | integer (value : Int)
  | decimal (value : Decimal)
  | text (value : String)
  | sequence (items : List Document)
  | mapping (fields : List (String × Document))

instance : Inhabited Document := ⟨.null⟩

namespace Document

def get? (name : String) : Document → Option Document
  | mapping fields => fields.lookup name
  | _ => none

-- A name that comes again takes the place of the earlier one.
def placeField (name : String) (value : Document) : List (String × Document) → List (String × Document)
  | [] => [(name, value)]
  | (other, held) :: rest =>
    if name = other then (name, value) :: rest
    else if name < other then (name, value) :: (other, held) :: rest
    else (other, held) :: placeField name value rest

end Document
end Lifespan
