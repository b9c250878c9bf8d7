import Lifespan.Document.Numeral
import Lifespan.Text.Units

-- The pieces that the text of a document is made of, found character by character.
namespace Lifespan.Document

inductive Bracket
  | square | curly
deriving DecidableEq, Repr

inductive Token
  | opening (bracket : Bracket)
  | closing (bracket : Bracket)
  | comma
  | colon
  | scalar (value : Document)

namespace Token

-- Where in a piece the characters read so far end. Characters of a piece are kept last first.
inductive Place
  | between
  | word (letters : List Char)
  | text (characters : List Char)
  | escape (characters : List Char)
  -- in a character that is given by its units, with the one before it if that is the first of two
  | unit (characters : List Char) (lead : Option Nat) (missing value : Nat)
  | pair (characters : List Char) (lead : Nat) (begun : Bool)

def isBlank (c : Char) : Bool := c == ' ' || c == '\n' || c == '\t' || c == '\r'

def isWordChar (c : Char) : Bool := c.isAlphanum || c == '+' || c == '-' || c == '.'

def ofWord? : List Char → Option Token
  | ['n', 'u', 'l', 'l'] => some (.scalar .null)
  | ['t', 'r', 'u', 'e'] => some (.scalar (.boolean true))
  | ['f', 'a', 'l', 's', 'e'] => some (.scalar (.boolean false))
  | letters => do return .scalar (← (← Numeral.ofChars? letters).toDocument?)

def unescaped? : Char → Option Char
  | '"' => some '"'
  | '\\' => some '\\'
  | '/' => some '/'
  | 'b' => some '\x08'
  | 'f' => some '\x0c'
  | 'n' => some '\n'
  | 'r' => some '\r'
  | 't' => some '\t'
  | _ => none

def hexDigit? (c : Char) : Option Nat :=
  if c.isDigit then some (c.toNat - '0'.toNat)
  else if 'a' ≤ c ∧ c ≤ 'f' then some (c.toNat - 'a'.toNat + 10)
  else if 'A' ≤ c ∧ c ≤ 'F' then some (c.toNat - 'A'.toNat + 10)
  else none

-- A unit stands for a character, or for half of one if the other half is next to it.
def afterUnit? (characters : List Char) (unit : Nat) : Option Nat → Option Place
  | some lead => if Text.Units.isTrail unit then some (.text (Text.Units.joined lead unit :: characters)) else none
  | none =>
    if Text.Units.isLead unit then some (.pair characters unit false)
    else if Text.Units.isTrail unit then none
    else some (.text (Char.ofNat unit :: characters))

def begin? (c : Char) : Option (Place × Option Token) :=
  match c with
  | '[' => some (.between, some (.opening .square))
  | ']' => some (.between, some (.closing .square))
  | '\x7b' => some (.between, some (.opening .curly))
  | '\x7d' => some (.between, some (.closing .curly))
  | ',' => some (.between, some .comma)
  | ':' => some (.between, some .colon)
  | '"' => some (.text [], none)
  | c =>
    if isBlank c then some (.between, none)
    else if isWordChar c then some (.word [c], none)
    else none

def step? : Place × List Token → Char → Option (Place × List Token)
  | (.between, found), c => do
    let (place, token) ← begin? c
    return (place, token.toList ++ found)
  | (.word letters, found), c =>
    if isWordChar c then some (.word (c :: letters), found)
    else do
      let word ← ofWord? letters.reverse
      let (place, token) ← begin? c
      return (place, token.toList ++ word :: found)
  | (.text characters, found), c =>
    if c = '"' then some (.between, .scalar (.text (String.ofList characters.reverse)) :: found)
    else if c = '\\' then some (.escape characters, found)
    else if c.toNat < 0x20 then none
    else some (.text (c :: characters), found)
  | (.escape characters, found), c =>
    if c = 'u' then some (.unit characters none 4 0, found)
    else (unescaped? c).map fun meant => (.text (meant :: characters), found)
  | (.unit characters lead missing value, found), c => do
    let value := 16 * value + (← hexDigit? c)
    if missing ≤ 1 then return (← afterUnit? characters value lead, found)
    else return (.unit characters lead (missing - 1) value, found)
  | (.pair characters lead false, found), c => if c = '\\' then some (.pair characters lead true, found) else none
  | (.pair characters lead true, found), c =>
    if c = 'u' then some (.unit characters (some lead) 4 0, found) else none

-- Only a word may stand at the very end of a text without being closed.
def finish? : Place × List Token → Option (List Token)
  | (.between, found) => some found.reverse
  | (.word letters, found) => do return (← ofWord? letters.reverse) :: found |>.reverse
  | _ => none

def ofText? (text : String) : Option (List Token) := (text.toList.foldlM step? (.between, [])).bind finish?

end Token
end Lifespan.Document
