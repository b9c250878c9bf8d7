import Lifespan.Document

-- Numbers as they are written in documents: digits, perhaps with a point and more digits after
-- it, perhaps with a power of ten. There are no zeros in front and no plus sign.
namespace Lifespan

structure Numeral where
  isNegative : Bool
  whole : List Char
  fraction : Option (List Char)
  exponent : Option (Bool × List Char)
deriving DecidableEq, Repr

namespace Numeral

def isWhole : List Char → Bool
  | [] => false
  | '0' :: rest => rest.isEmpty
  | _ => true

def isValid (numeral : Numeral) : Bool :=
  isWhole numeral.whole && numeral.fraction.all (!·.isEmpty) && numeral.exponent.all (!·.2.isEmpty)

def exponent? : List Char → Option (Option (Bool × List Char))
  | [] => some none
  | mark :: rest =>
    if mark = 'e' ∨ mark = 'E' then
      let (isNegative, digits) := match rest with
        | '-' :: digits => (true, digits)
        | '+' :: digits => (false, digits)
        | digits => (false, digits)
      if digits.all Char.isDigit then some (some (isNegative, digits)) else none
    else none

def ofUnsigned? (isNegative : Bool) (letters : List Char) : Option Numeral := do
  let whole := letters.takeWhile Char.isDigit
  let (fraction, rest) := match letters.dropWhile Char.isDigit with
    | '.' :: rest => (some (rest.takeWhile Char.isDigit), rest.dropWhile Char.isDigit)
    | rest => (none, rest)
  let exponent ← exponent? rest
  let numeral : Numeral := ⟨isNegative, whole, fraction, exponent⟩
  if numeral.isValid then some numeral else none

def ofChars? : List Char → Option Numeral
  | '-' :: letters => ofUnsigned? true letters
  | letters => ofUnsigned? false letters

def digit (c : Char) : Nat := c.toNat - '0'.toNat

def value (digits : List Char) : Nat := digits.foldl (fun n c => 10 * n + digit c) 0

-- Nothing but a sign and digits is a whole number, if a machine word holds it. Zero has no sign.
def integer? (numeral : Numeral) : Option Int :=
  match numeral with
  | ⟨false, whole, none, none⟩ => if value whole < Nat.pow 2 64 then some (value whole) else none
  | ⟨true, whole, none, none⟩ => if 0 < value whole ∧ value whole ≤ Nat.pow 2 63 then some (-value whole) else none
  | _ => none

-- Takes digits as long as a machine word holds the number they make. A digit that is taken and
-- a digit that is left out each change the power of ten in their own way.
def gather (taken left : Int) : Nat → Int → List Char → Nat × Int
  | number, power, [] => (number, power)
  | number, power, c :: rest =>
    if 10 * number + digit c < Nat.pow 2 64 then gather taken left (10 * number + digit c) (power + taken) rest
    else (number, power + left * (rest.length + 1))

def decimal? (numeral : Numeral) : Option Decimal :=
  let (whole, power) := gather 0 1 0 0 numeral.whole
  let (digits, power) := gather (-1) 0 whole power (numeral.fraction.getD [])
  let exponent : Int := match numeral.exponent with
    | none => 0
    | some (true, digits) => -value digits
    | some (false, digits) => value digits
  Decimal.ofDigits? numeral.isNegative digits (power + exponent)

def toDocument? (numeral : Numeral) : Option Document :=
  match numeral.integer? with
  | some value => some (.integer value)
  | none => numeral.decimal?.map .decimal

example : (ofChars? ['-', '7']).bind integer? = some (-7) := by decide
example : (ofChars? ['-', '0']).bind integer? = none := by decide
example : (ofChars? ['-', '0']).bind decimal? = some ⟨true, 0, 0⟩ := by decide +kernel
example : (ofChars? ['1', '.', '5', '0', 'e', '1']).bind decimal? = some ⟨false, 15, 0⟩ := by decide +kernel
example : ofChars? ['0', '1'] = none := by decide
example : ofChars? ['1', '.'] = none := by decide

end Numeral
end Lifespan
