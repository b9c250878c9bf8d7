import Lifespan.Decimal.Nearest

-- Numbers with a sign and a decimal point, as they come back from a binary format of 53 digits:
-- a number is written with the fewest digits that are read as the same number again.
namespace Lifespan

structure Decimal where
  isNegative : Bool
  digits : Nat
  power : Int
deriving DecidableEq, Repr

namespace Decimal

def leading (a : Ratio) : Int :=
  if a.num < a.den then
    -((List.range 400).find? (fun zeros => a.den ≤ a.num * Nat.pow 10 (zeros + 1))).elim 0 (fun zeros => (zeros : Int) + 1)
  else (Nat.toDigits 10 a.floor).length - 1

-- One digit too many can only be a zero at the end.
def carried (count digits : Nat) (power : Int) : Nat × Int :=
  if digits = Nat.pow 10 (count + 1) then (digits / 10, power + 1) else (digits, power)

-- The number on the grid of the digits that follow the first one, if it is read as this one
-- again. Of two such numbers the nearer is taken, of two as near the even one.
def onGrid (a : Ratio) (count : Nat) : Option (Nat × Int) :=
  let power := leading a - count
  let scaled := a.times 10 (-power)
  let reads (n : Nat) : Bool := (nearest ((Ratio.ofNat n).times 10 power)).same a
  let below := scaled.floor
  let nearer : Bool :=
    decide (scaled.distance below < scaled.distance (below + 1) ∨
      (scaled.distance below = scaled.distance (below + 1) ∧ below % 2 = 0))
  if reads below && (!reads (below + 1) || nearer) then some (below, power)
  else if reads (below + 1) then some (carried count (below + 1) power)
  else none

def shortest (a : Ratio) : Nat × Int :=
  if a.num = 0 then (0, 0) else ((List.range 17).findSome? (onGrid a)).getD (0, 0)

def largestPower : Nat := 308

def powerOfTen (power : Nat) : Ratio := nearest (.ofNat (Nat.pow 10 power))

-- Division by a power of ten that is too large to be held goes by as many steps as it takes.
def divided (a : Ratio) (power : Nat) : Ratio :=
  if power ≤ largestPower ∨ a.num = 0 then nearest (a.quotient (powerOfTen (min power largestPower)))
  else divided (nearest (a.quotient (powerOfTen largestPower))) (power - largestPower)
termination_by power
decreasing_by simp only [largestPower] at *; omega

def multiplied (a : Ratio) (power : Nat) : Option Ratio :=
  if a.num = 0 then some a
  else if largestPower < power then none
  else
    let product := nearest (a.product (powerOfTen power))
    if overflows product then none else some product

-- Digits are rounded on their own before the power of ten is applied, and the result is rounded
-- once more. There is none if it cannot be held.
def ofDigits? (isNegative : Bool) (digits : Nat) (power : Int) : Option Decimal := do
  let rounded := nearest (.ofNat digits)
  let value ← if power < 0 then some (divided rounded (-power).toNat) else multiplied rounded power.toNat
  let (digits, power) := shortest value
  return ⟨isNegative, digits, power⟩

def zeros (count : Nat) : String := String.ofList (List.replicate count '0')

def positional (digits : Nat) (power : Int) : String :=
  if 0 ≤ power then toString (digits * Nat.pow 10 power.toNat) ++ ".0"
  else
    let places := (-power).toNat
    let fraction := toString (digits % Nat.pow 10 places)
    toString (digits / Nat.pow 10 places) ++ "." ++ zeros (places - fraction.length) ++ fraction

def scientific (digits : Nat) (power : Int) : String :=
  let written := toString digits
  let places := written.length - 1
  let exponent := power + places
  (if places = 0 then written else toString (digits / Nat.pow 10 places) ++ "." ++ (written.drop 1).toString) ++ "e" ++
    (if exponent < 0 then toString exponent else "+" ++ toString exponent)

-- Positional as long as the first digit stands no more than sixteen places before the point
-- and no more than five behind it.
def text (a : Decimal) : String :=
  let point := ((toString a.digits).length : Int) + a.power
  (if a.isNegative then "-" else "") ++
    (if -5 < point ∧ point ≤ 16 then positional a.digits a.power else scientific a.digits a.power)

example : text ⟨false, 15, -1⟩ = "1.5" := by decide +kernel
example : text ⟨true, 0, 0⟩ = "-0.0" := by decide +kernel
example : text ⟨false, 1, 15⟩ = "1000000000000000.0" := by decide +kernel
example : text ⟨false, 1, 16⟩ = "1e+16" := by decide +kernel
example : text ⟨true, 15, 15⟩ = "-1.5e+16" := by decide +kernel
example : text ⟨false, 1, -5⟩ = "0.00001" := by decide +kernel
example : text ⟨false, 1, -6⟩ = "1e-6" := by decide +kernel
example : ofDigits? false 12345678901234567890 (-20) = some ⟨false, 12345678901234568, -17⟩ := by decide +kernel
example : ofDigits? false 112589990684262425 (-2) = some ⟨false, 11258999068426242, -1⟩ := by decide +kernel
example : ofDigits? false 5 (-324) = some ⟨false, 5, -324⟩ := by decide +kernel
example : ofDigits? true 1 309 = none := by decide +kernel

end Decimal
end Lifespan
