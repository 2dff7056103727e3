namespace ClaimMapping.Decimal

/-- The number `significand * 2 ^ exponent`. -/
structure Binary where
  significand : Nat
  exponent : Int
  deriving DecidableEq, Repr

/-- A binary64 number, taken apart. -/
inductive FloatForm where
  | finite (negative : Bool) (magnitude : Binary)
  | infinite (negative : Bool)
  | notANumber
  deriving DecidableEq, Repr

/-- Significands of normal numbers have 53 bits, those of subnormal numbers fewer. -/
def hiddenBit : Nat := 0x10000000000000

def leastExponent : Int := -1074

def FloatForm.ofBits (bits : Nat) : FloatForm :=
  let negative := bits / 0x8000000000000000 % 2 == 1
  let biased := bits / hiddenBit % 2048
  let fraction := bits % hiddenBit
  if biased = 2047 then if fraction = 0 then .infinite negative else .notANumber
  else if biased = 0 then .finite negative ⟨fraction, leastExponent⟩
  else .finite negative ⟨hiddenBit + fraction, leastExponent + (biased - 1 : Nat)⟩

def FloatForm.ofFloat (x : Float) : FloatForm := .ofBits x.toBits.toNat

/-- Drops the fraction. -/
def Binary.truncate (b : Binary) : Nat :=
  if 0 ≤ b.exponent then b.significand * Nat.pow 2 b.exponent.toNat
  else b.significand / Nat.pow 2 (-b.exponent).toNat

/-- The integer part, moved to the nearest end of the range when it lies outside; the undefined
number becomes zero. -/
def clamp (low high : Int) (x : Float) : Int :=
  match FloatForm.ofFloat x with
  | .notANumber => 0
  | .infinite negative => if negative then low else high
  | .finite negative b =>
    max low (min high (if negative then -(b.truncate : Int) else b.truncate))

def clampInt64 (x : Float) : Int := clamp (-0x8000000000000000) 0x7FFFFFFFFFFFFFFF x

def clampUInt64 (x : Float) : Int := clamp 0 0xFFFFFFFFFFFFFFFF x

/-- The bits of a number that has at most 53 significant bits and is not below the least one. -/
def Binary.toBits (b : Binary) : Nat :=
  if b.significand = 0 then 0
  else
    let room := (b.exponent - leastExponent).toNat
    let shift := min (52 - b.significand.log2) room
    let m := b.significand * Nat.pow 2 shift
    if m < hiddenBit then m
    else (room - shift + 1) * hiddenBit + (m - hiddenBit)

def Binary.toFloat (b : Binary) : Float := Float.ofBits (UInt64.ofNat b.toBits)

def infinity : Float := Float.ofBits 0x7FF0000000000000

def undefined : Float := Float.ofBits 0x7FF8000000000000

/-- The remainder of the truncated quotient, with the sign of `a`. There is none by zero and none
of an infinite number. -/
def remainder (a b : Float) : Float :=
  match FloatForm.ofFloat a, FloatForm.ofFloat b with
  | .finite negative x, .finite _ y =>
    if y.significand = 0 then undefined
    else
      let e := min x.exponent y.exponent
      let p := x.significand * Nat.pow 2 (x.exponent - e).toNat
      let q := y.significand * Nat.pow 2 (y.exponent - e).toNat
      let r := (Binary.mk (p % q) e).toFloat
      if negative then -r else r
  | .finite .., .infinite _ => a
  | _, _ => undefined

end ClaimMapping.Decimal
