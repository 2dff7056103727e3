import ClaimMapping.Decimal.Numeral

namespace ClaimMapping.Unicode

/-- The character with a code point; surrogates and what lies behind the last plane have none. -/
def charOf? (n : Nat) : Option Char :=
  if n < 0xD800 ∨ (0xE000 ≤ n ∧ n < 0x110000) then some (Char.ofNat n) else none

/-- The character whose code point the next `count` hexadecimal digits write. -/
def takeCode? (count : Nat) (text : List Char) : Option (Char × List Char) := do
  let digits := text.take count
  if digits.length = count then
    let n ← Decimal.radixValue? 16 digits
    let c ← charOf? n
    return (c, text.drop count)
  else none

/-- A set of characters as increasing, disjoint ranges: the first and last code point of each. -/
abbrev Ranges := List (Nat × Nat)

/-- Stops at the first range that lies behind `n`. -/
def Ranges.contains : Ranges → Nat → Bool
  | [], _ => false
  | (low, high) :: ranges, n => if n < low then false else n ≤ high || contains ranges n

end ClaimMapping.Unicode
