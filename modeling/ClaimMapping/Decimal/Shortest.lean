import ClaimMapping.Decimal.Binary

namespace ClaimMapping.Decimal

/-- The number `digits * 10 ^ exponent`. -/
structure Digits where
  digits : Nat
  exponent : Int
  deriving DecidableEq, Repr

/-- Decimals between `low / 4` and `high / 4`, in units of `2 ^ exponent`, read back as the number
`value / 4`; the ends count when the significand is even. -/
structure Interval where
  low : Nat
  value : Nat
  high : Nat
  exponent : Int
  closed : Bool

/-- The number below a power of two is half as far away as the number above it. -/
def Binary.interval (b : Binary) : Interval :=
  let nearBelow := b.significand = hiddenBit ∧ b.exponent ≠ leastExponent
  { low := 4 * b.significand - (if nearBelow then 1 else 2)
    value := 4 * b.significand
    high := 4 * b.significand + 2
    exponent := b.exponent - 2
    closed := b.significand % 2 == 0 }

/-- `d * 10 ^ k` against `n * 2 ^ e`, both brought to whole numbers. -/
def leftScale (k e : Int) : Nat := Nat.pow 10 k.toNat * Nat.pow 2 (-e).toNat

def rightScale (k e : Int) : Nat := Nat.pow 2 e.toNat * Nat.pow 10 (-k).toNat

namespace Interval

def holds (i : Interval) (k : Int) (d : Nat) : Bool :=
  let p := d * leftScale k i.exponent
  let q := rightScale k i.exponent
  if i.closed then i.low * q ≤ p && p ≤ i.high * q else i.low * q < p && p < i.high * q

/-- The multiple of `10 ^ k` next to the value that reads back, if there is one: the nearer of its
two neighbours, and the even one when they are equally near. -/
def onGrid? (i : Interval) (k : Int) : Option Nat :=
  let p := leftScale k i.exponent
  let v := i.value * rightScale k i.exponent
  let below := v / p
  let above := below + 1
  match i.holds k below, i.holds k above with
  | false, false => none
  | true, false => some below
  | false, true => some above
  | true, true =>
    let down := v - below * p
    let up := above * p - v
    if down < up then some below
    else if up < down then some above
    else if below % 2 = 0 then some below else some above

/-- Tries the grids `10 ^ k`, `10 ^ (k - 1)`, …, each one digit finer. -/
def firstOnGrid (i : Interval) : Nat → Int → Digits
  | 0, k => ⟨i.value * rightScale k i.exponent / leftScale k i.exponent, k⟩
  | fuel + 1, k =>
    match i.onGrid? k with
    | some d => ⟨d, k⟩
    | none => firstOnGrid i fuel (k - 1)

end Interval

/-- Whether `10 ^ k` is at most the number. -/
def Binary.reaches (b : Binary) (k : Int) : Bool :=
  leftScale k b.exponent ≤ b.significand * rightScale k b.exponent

/-- The decimal exponent of the leading digit. -/
def Binary.magnitude (b : Binary) : Int :=
  let estimate := Int.fdiv ((b.significand.log2 + b.exponent) * 30103) 100000
  if b.reaches (estimate + 1) then estimate + 1
  else if b.reaches estimate then estimate else estimate - 1

/-- Moves trailing zeros into the exponent. -/
def Digits.strip : Nat → Digits → Digits
  | 0, d => d
  | fuel + 1, d =>
    if d.digits ≠ 0 ∧ d.digits % 10 = 0 then strip fuel ⟨d.digits / 10, d.exponent + 1⟩ else d

/-- The shortest decimal of a number: among the decimals that read back as the number, those with
the fewest digits, and of these the nearest to it. Seventeen digits always read back. -/
def Binary.shortest (b : Binary) : Digits :=
  if b.significand = 0 then ⟨0, 0⟩
  else (b.interval.firstOnGrid 17 b.magnitude).strip 20

end ClaimMapping.Decimal
