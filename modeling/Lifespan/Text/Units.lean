-- Characters as units of 16 bits. Those beyond the basic plane are a pair of a leading and a
-- trailing unit, neither of which is a character.
namespace Lifespan.Text.Units

def isLead (unit : Nat) : Bool := decide (0xd800 ≤ unit ∧ unit < 0xdc00)

def isTrail (unit : Nat) : Bool := decide (0xdc00 ≤ unit ∧ unit < 0xe000)

def ofChar (c : Char) : List Nat :=
  if c.toNat < 0x10000 then [c.toNat]
  else [0xd800 + (c.toNat - 0x10000) / 0x400, 0xdc00 + (c.toNat - 0x10000) % 0x400]

def joined (lead trail : Nat) : Char := Char.ofNat (0x10000 + (lead - 0xd800) * 0x400 + (trail - 0xdc00))

theorem ofChar_pair (c : Char) (beyond : 0x10000 ≤ c.toNat) :
    ∃ lead trail, ofChar c = [lead, trail] ∧ isLead lead = true ∧ isTrail trail = true ∧ joined lead trail = c := by
  have bound : c.toNat < 0x110000 := by
    rcases c.valid with low | high
    · exact Nat.lt_trans low (by decide)
    · exact high.2
  refine ⟨_, _, if_neg (by omega), ?_, ?_, ?_⟩
  · simp only [isLead, decide_eq_true_eq]; omega
  · simp only [isTrail, decide_eq_true_eq]; omega
  · have sum : 0x10000 + (0xd800 + (c.toNat - 0x10000) / 0x400 - 0xd800) * 0x400 +
        (0xdc00 + (c.toNat - 0x10000) % 0x400 - 0xdc00) = c.toNat := by omega
    rw [joined, sum]
    exact Char.ofNat_toNat c

example : ofChar '😀' = [0xd83d, 0xde00] := by decide

end Lifespan.Text.Units
