import ClaimMapping.Decimal.Binary

namespace ClaimMapping.Decimal

def isDigit (c : Char) : Bool := '0' ≤ c && c ≤ '9'

def digitValue (c : Char) : Nat := c.toNat - '0'.toNat

/-- The longest run of digits at the front, and what follows. -/
def takeDigits (text : List Char) : List Char × List Char :=
  (text.takeWhile isDigit, text.dropWhile isDigit)

def natValue (digits : List Char) : Nat := digits.foldl (fun n c => 10 * n + digitValue c) 0

def hexValue? (c : Char) : Option Nat :=
  if '0' ≤ c && c ≤ '9' then some (c.toNat - '0'.toNat)
  else if 'a' ≤ c && c ≤ 'f' then some (c.toNat - 'a'.toNat + 10)
  else if 'A' ≤ c && c ≤ 'F' then some (c.toNat - 'A'.toNat + 10)
  else none

def isHexDigit (c : Char) : Bool := (hexValue? c).isSome

def hexNumber (digits : List Char) : Nat :=
  digits.foldl (fun n c => 16 * n + (hexValue? c).getD 0) 0

/-- The value of digits in a radix of at most sixteen, at least one digit. -/
def radixValue? (radix : Nat) (digits : List Char) : Option Nat :=
  if digits.isEmpty then none
  else digits.foldlM (fun n c => do
    let d ← hexValue? c
    if d < radix then some (radix * n + d) else none) 0

/-- The binary64 number nearest to `n * 10 ^ e`. -/
def nearest (n : Nat) (e : Int) : Float :=
  let place := (Nat.toDigits 10 n).length + e
  if n = 0 ∨ place < -400 then 0.0
  else if 400 < place then infinity
  else if e < 0 then Float.ofScientific n true (-e).toNat
  else Float.ofScientific n false e.toNat

/-- The binary64 number nearest to an integer. -/
def ofInt (n : Int) : Float := if n < 0 then -nearest n.natAbs 0 else nearest n.natAbs 0

/-- A sign, if there is one, and the rest. -/
def takeSign : List Char → Bool × List Char
  | '-' :: rest => (true, rest)
  | '+' :: rest => (false, rest)
  | rest => (false, rest)

def isInt64 (n : Int) : Bool := -0x8000000000000000 ≤ n && n < 0x8000000000000000

/-- An integer of 64 bits that is the whole text, with an optional sign. -/
def readInt64? (radix : Nat) (text : List Char) : Option Int := do
  let (negative, digits) := takeSign text
  let n ← radixValue? radix digits
  let signed : Int := if negative then -n else n
  if isInt64 signed then some signed else none

/-- An exponent mark with its digits, if they follow; its absence is exponent zero. -/
def takeExponent? : List Char → Option (Int × List Char)
  | c :: rest =>
    if c = 'e' ∨ c = 'E' then
      let (negative, rest) := takeSign rest
      let (ds, rest) := takeDigits rest
      if ds.isEmpty then none
      else some (if negative then -(natValue ds : Int) else natValue ds, rest)
    else some (0, c :: rest)
  | [] => some (0, [])

/-- Digits with an optional point among them, at least one digit in all, then an optional
exponent. -/
def takeUnsigned? (text : List Char) : Option (Float × List Char) :=
  let (whole, rest) := takeDigits text
  let (fraction, rest) := match rest with
    | '.' :: more => takeDigits more
    | _ => ([], rest)
  if whole.isEmpty && fraction.isEmpty then none
  else do
    let (e, rest) ← takeExponent? rest
    return (nearest (natValue (whole ++ fraction)) (e - fraction.length), rest)

def foldAscii (c : Char) : Char :=
  if 'A' ≤ c && c ≤ 'Z' then Char.ofNat (c.toNat + 32) else c

/-- A floating point numeral that is the whole text: the names of infinity and of the undefined
number are read without regard to case. -/
def readFloat? (text : List Char) : Option Float :=
  let (negative, rest) := takeSign text
  let signed (x : Float) : Float := if negative then -x else x
  match takeUnsigned? rest with
  | some (x, []) => some (signed x)
  | some _ => none
  | none =>
    let word := String.ofList (rest.map foldAscii)
    if word = "inf" ∨ word = "infinity" then some (signed infinity)
    else if word = "nan" then some (signed undefined)
    else none

end ClaimMapping.Decimal
