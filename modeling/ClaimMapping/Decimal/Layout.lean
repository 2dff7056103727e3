import ClaimMapping.Decimal.Shortest

namespace ClaimMapping.Decimal

def natText (n : Nat) : List Char := Nat.toDigits 10 n

def intText (n : Int) : List Char :=
  if n < 0 then '-' :: natText n.natAbs else natText n.natAbs

def zeros (n : Nat) : List Char := List.replicate n '0'

/-- The decimal digits of `n`, with zeros in front up to `width` digits. -/
def padded (width n : Nat) : List Char :=
  let ds := natText n
  zeros (width - ds.length) ++ ds

/-- The place of a number is the count of digits before its decimal point: positive for 10, zero
for 0.1, negative for 0.01. -/
structure Layout where
  /-- Places written positionally; all when absent. -/
  positional : Option (Int × Int)
  /-- Whether a whole number written positionally ends in `.0`. -/
  keepPoint : Bool
  infinity : String
  negativeInfinity : String
  notANumber : String

def Layout.isPositional (l : Layout) (place : Int) : Bool :=
  match l.positional with
  | none => true
  | some (least, most) => least ≤ place && place ≤ most

def positionalText (keepPoint : Bool) (ds : List Char) (place : Int) : List Char :=
  if place ≤ 0 then '0' :: '.' :: zeros (-place).toNat ++ ds
  else if place.toNat < ds.length then ds.take place.toNat ++ '.' :: ds.drop place.toNat
  else ds ++ zeros (place.toNat - ds.length) ++ (if keepPoint then ['.', '0'] else [])

def exponentText (ds : List Char) (place : Int) : List Char :=
  let fraction := match ds with
    | [] => []
    | [d] => [d]
    | d :: rest => d :: '.' :: rest
  fraction ++ 'e' :: intText (place - 1)

/-- A number with its shortest digits, positionally or as digits and an exponent. -/
def Layout.write (l : Layout) (x : Float) : List Char :=
  match FloatForm.ofFloat x with
  | .notANumber => l.notANumber.toList
  | .infinite negative => (if negative then l.negativeInfinity else l.infinity).toList
  | .finite negative b =>
    let sign := if negative then ['-'] else []
    if b.significand = 0 then sign ++ (if l.keepPoint then ['0', '.', '0'] else ['0'])
    else
      let d := b.shortest
      let ds := natText d.digits
      let place := ds.length + d.exponent
      sign ++ (if l.isPositional place then positionalText l.keepPoint ds place
        else exponentText ds place)

end ClaimMapping.Decimal
