-- Numbers that a binary format of 53 digits can hold, and the nearest one to any other number.
namespace Lifespan.Decimal

structure Ratio where
  num : Nat
  den : Nat

namespace Ratio

def ofNat (n : Nat) : Ratio := ⟨n, 1⟩
def same (a b : Ratio) : Bool := a.num * b.den == b.num * a.den
def product (a b : Ratio) : Ratio := ⟨a.num * b.num, a.den * b.den⟩
def quotient (a b : Ratio) : Ratio := ⟨a.num * b.den, a.den * b.num⟩
def times (a : Ratio) (base : Nat) (power : Int) : Ratio :=
  if 0 ≤ power then ⟨a.num * Nat.pow base power.toNat, a.den⟩ else ⟨a.num, a.den * Nat.pow base (-power).toNat⟩
def floor (a : Ratio) : Nat := a.num / a.den
-- To the nearest whole number, a half to the even one.
def round (a : Ratio) : Nat :=
  let rest := 2 * (a.num % a.den)
  if a.den < rest ∨ (a.den = rest ∧ a.floor % 2 = 1) then a.floor + 1 else a.floor
def distance (a : Ratio) (n : Nat) : Nat := max (a.num - n * a.den) (n * a.den - a.num)

end Ratio

-- The place of the last of 53 binary digits; below the smallest place there are fewer.
def place (a : Ratio) : Int :=
  let guess : Int := (a.num.log2 : Int) - a.den.log2 - 52
  max (-1074) (if (a.times 2 (-guess)).floor < Nat.pow 2 52 then guess - 1 else guess)

def nearest (a : Ratio) : Ratio := (Ratio.ofNat (a.times 2 (-place a)).round).times 2 (place a)

def overflows (a : Ratio) : Bool := decide (Nat.pow 2 1024 ≤ a.floor)

example : (nearest (.ofNat (2 ^ 53 + 1))).num = 2 ^ 53 := by decide +kernel
example : (nearest (.ofNat (2 ^ 53 + 3))).num = 2 ^ 53 + 4 := by decide +kernel
example : overflows (nearest (.ofNat (10 ^ 308))) = false := by decide +kernel

end Lifespan.Decimal
