import Lifespan.Document
import Lifespan.Text.Units

-- Documents as text on one line. Only visible characters of the first 128 stand for themselves;
-- all others are given by their units.
namespace Lifespan.Document

def hexDigits (width n : Nat) : List Char :=
  (List.range width).reverse.map fun place => Nat.digitChar (n / Nat.pow 16 place % 16)

def escapedUnit (unit : Nat) : String := String.ofList ('\\' :: 'u' :: hexDigits 4 unit)

def escapedChar (c : Char) : String :=
  if c = '"' then "\\\""
  else if c = '\\' then "\\\\"
  else if 0x20 ≤ c.toNat ∧ c.toNat < 0x7f then c.toString
  else String.join ((Text.Units.ofChar c).map escapedUnit)

def renderText (text : String) : String := "\"" ++ String.join (text.toList.map escapedChar) ++ "\""

mutual
def render : Document → String
  | null => "null"
  | boolean true => "true"
  | boolean false => "false"
  | integer value => toString value
  | decimal value => value.text
  | text value => renderText value
  | sequence items => "[" ++ String.intercalate "," (renderItems items) ++ "]"
  | mapping fields => "\x7b" ++ String.intercalate "," (renderFields fields) ++ "\x7d"

def renderItems : List Document → List String
  | [] => []
  | item :: rest => render item :: renderItems rest

def renderFields : List (String × Document) → List String
  | [] => []
  | (name, value) :: rest => (renderText name ++ ":" ++ render value) :: renderFields rest
end

example : render (.mapping [("a", .sequence [.null, .decimal ⟨true, 15, -1⟩]), ("é", .text "😀\n")]) =
    "\x7b\"a\":[null,-1.5],\"\\u00e9\":\"\\ud83d\\ude00\\u000a\"\x7d" := by decide +kernel

end Lifespan.Document
