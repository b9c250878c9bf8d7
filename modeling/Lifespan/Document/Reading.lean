import Lifespan.Document
import Lifespan.Kind
import Lifespan.Record

-- Reading kinds and settings out of documents. A refusal tells what was found and
-- what would have been taken.
namespace Lifespan

namespace Document

def described : Document → String
  | null => "null"
  | boolean value => "boolean `" ++ (if value then "true" else "false") ++ "`"
  | integer value => "integer `" ++ toString value ++ "`"
  | decimal value => "floating point `" ++ value.text ++ "`"
  | text value => "string " ++ Text.quoted value
  | sequence _ => "sequence"
  | mapping _ => "map"

end Document

inductive Refusal
  | invalidType (found : Document) (expected : String)
  | invalidValue (found : Document) (expected : String)
  | invalidLength (length : Nat)
  | unknownKind (name : String)

namespace Refusal

def choices : String := String.intercalate ", " (Kind.all.map fun kind => "`" ++ kind.name ++ "`")

def message : Refusal → String
  | invalidType found expected => "invalid type: " ++ found.described ++ ", expected " ++ expected
  | invalidValue found expected => "invalid value: " ++ found.described ++ ", expected " ++ expected
  | invalidLength length =>
    "invalid length " ++ toString length ++ ", expected fewer elements in array"
  | unknownKind name => "unknown variant `" ++ name ++ "`, expected one of " ++ choices

end Refusal

def Kind.named (name : String) : Except Refusal Kind :=
  match ofName? name with
  | some kind => .ok kind
  | none => .error (.unknownKind name)

-- A kind is its name, or a mapping from its name to nothing. The name is judged before
-- what it is mapped to.
def Kind.ofDocument : Document → Except Refusal Kind
  | .text name => Kind.named name
  | .mapping [(name, content)] => do
    let kind ← Kind.named name
    match content with
    | .null => .ok kind
    | content => .error (.invalidType content "unit")
  | .mapping fields => .error (.invalidValue (.mapping fields) "map with a single key")
  | document => .error (.invalidType document "string or map")

namespace Settings

def boolean : Document → Except Refusal Bool
  | .boolean value => .ok value
  | document => .error (.invalidType document "a boolean")

-- Names that mean nothing here are passed over.
def readField (settings : Settings) : String × Document → Except Refusal Settings
  | ("lifecycle_debugging", document) => do return { settings with lifecycleDebugging := ← boolean document }
  | ("warn_on_leftover_scopes", document) => do return { settings with warnOnLeftoverScopes := ← boolean document }
  | _ => .ok settings

-- A field that is absent keeps its default. In a sequence the place tells the field.
def ofDocument : Document → Except Refusal Settings
  | .mapping fields => fields.foldlM readField {}
  | .sequence [] => .ok {}
  | .sequence [debugging] => do return { lifecycleDebugging := ← boolean debugging }
  | .sequence (debugging :: warn :: rest) => do
    let settings : Settings :=
      { lifecycleDebugging := ← boolean debugging, warnOnLeftoverScopes := ← boolean warn }
    if rest.isEmpty then .ok settings else .error (.invalidLength (rest.length + 2))
  | document => .error (.invalidType document "struct ScopeSettings")

end Settings
end Lifespan
