import ClaimMapping.Decimal.Numeral
import ClaimMapping.Json.Basic

namespace ClaimMapping.Json

open Decimal

def wordLimit : Nat := 0x10000000000000000

/-- `significand * 10 ^ exponent`, scaled in steps of at most 308 decimal places. -/
def scale? : Nat → Float → Int → Option Float
  | 0, x, _ => some x
  | fuel + 1, x, exponent =>
    if exponent.natAbs ≤ 308 then
      let power := nearest 1 exponent.natAbs
      if 0 ≤ exponent then
        let y := x * power
        if y == infinity then none else some y
      else some (x / power)
    else if x == 0.0 then some x
    else if 0 ≤ exponent then none
    else scale? fuel (x / nearest 1 308) (exponent + 308)

/-- Three divisions take every significand below the least number. -/
def ofParts? (negative : Bool) (significand : Nat) (exponent : Int) : Option Float :=
  (scale? 4 (UInt64.ofNat significand).toFloat exponent).map fun x => if negative then -x else x

/-- Takes digits into the significand as long as it fits a word; the others are only counted. -/
def takeSignificant : Nat → List Char → Nat × List Char
  | n, [] => (n, [])
  | n, c :: digits =>
    let next := 10 * n + digitValue c
    if next < wordLimit then takeSignificant next digits else (n, c :: digits)

/-- An exponent of this size or more is as good as infinite. -/
def exponentBound : Nat := 0x80000000

def withExponent? (negative : Bool) (significand : Nat) (base : Int) (exponent : Int) :
    Option Float :=
  if exponentBound ≤ exponent.natAbs then
    if significand ≠ 0 ∧ 0 < exponent then none
    else some (if negative then -0.0 else 0.0)
  else ofParts? negative significand (base + exponent)

def integer (negative : Bool) (n : Nat) : Number :=
  if negative then
    if n = 0 ∨ 0x8000000000000000 < n then .real (-(UInt64.ofNat n).toFloat)
    else .negative (Int64.ofInt (-n))
  else .natural (UInt64.ofNat n)

/-- The number written by the digits before the point, those after it, and the exponent. -/
def ofDigits? (negative : Bool) (whole : List Char) (fraction : Option (List Char))
    (exponent : Option Int) : Option Number :=
  let (n, dropped) := takeSignificant 0 whole
  match fraction, exponent with
  | none, none =>
    if dropped.isEmpty then some (integer negative n)
    else (ofParts? negative n dropped.length).map .real
  | _, _ =>
    let digits := fraction.getD []
    let (significand, ignored) := takeSignificant n digits
    let base : Int := dropped.length - (digits.length - ignored.length : Nat)
    match exponent with
    | none => (ofParts? negative significand base).map .real
    | some e => (withExponent? negative significand base e).map .real

/-- A whole number has no zero in front. -/
def takeWhole? (text : List Char) : Option (List Char × List Char) :=
  match takeDigits text with
  | ([], _) => none
  | ('0' :: _ :: _, _) => none
  | (digits, rest) => some (digits, rest)

def takeFraction? : List Char → Option (Option (List Char) × List Char)
  | '.' :: rest =>
    match takeDigits rest with
    | ([], _) => none
    | (digits, rest) => some (some digits, rest)
  | rest => some (none, rest)

def takePower? : List Char → Option (Option Int × List Char)
  | 'e' :: rest => power rest
  | 'E' :: rest => power rest
  | rest => some (none, rest)
where
  power (text : List Char) : Option (Option Int × List Char) :=
    let (negative, rest) := takeSign text
    match takeDigits rest with
    | ([], _) => none
    | (digits, rest) =>
      some (some (if negative then -(natValue digits : Int) else natValue digits), rest)

/-- A number at the front of a text, and what follows it. Integers are exact. Any other number is
read from its leading digits, as many as fit 64 bits, and scaled by a power of ten in binary64, so
its last bit can differ from the nearest number; too large a number is refused. -/
def takeNumber? (text : List Char) : Option (Number × List Char) := do
  let (negative, rest) := match text with
    | '-' :: rest => (true, rest)
    | rest => (false, rest)
  let (whole, rest) ← takeWhole? rest
  let (fraction, rest) ← takeFraction? rest
  let (exponent, rest) ← takePower? rest
  let n ← ofDigits? negative whole fraction exponent
  return (n, rest)

end ClaimMapping.Json
