import ClaimMapping.Decimal.Layout
import ClaimMapping.Decimal.Numeral

namespace ClaimMapping.Time

/-- A span of time, written as numbers with units, as in `1h30m0.5s`. -/
structure Duration where
  nanos : Int
  deriving DecidableEq, Repr

namespace Duration

/-- The digits of `n` behind a point, without the zeros at their end. -/
def fractionText (places n : Nat) : List Char :=
  match ((Decimal.padded places n).reverse.dropWhile (· == '0')).reverse with
  | [] => []
  | ds => '.' :: ds

/-- A count of small units as a decimal count of units that are `10 ^ places` times as large. -/
def scaledText (places n : Nat) : List Char :=
  Decimal.natText (n / Nat.pow 10 places) ++ fractionText places (n % Nat.pow 10 places)

/-- Below one second the largest unit that leaves a whole number in front; otherwise hours, minutes
and seconds from the first that is not zero on. -/
def positiveText (n : Nat) : List Char :=
  if n = 0 then ['0', 's']
  else if n < 1000 then Decimal.natText n ++ ['n', 's']
  else if n < 1000000 then scaledText 3 n ++ ['\u00b5', 's']
  else if n < 1000000000 then scaledText 6 n ++ ['m', 's']
  else
    let minutes := n / 60000000000
    let seconds := scaledText 9 (n % 60000000000) ++ ['s']
    if minutes = 0 then seconds
    else if minutes < 60 then Decimal.natText minutes ++ 'm' :: seconds
    else Decimal.natText (minutes / 60) ++ 'h' :: Decimal.natText (minutes % 60) ++ 'm' :: seconds

def text (d : Duration) : List Char :=
  if d.nanos < 0 then '-' :: positiveText d.nanos.natAbs else positiveText d.nanos.natAbs

def takeUnit? : List Char → Option (Nat × List Char)
  | 'm' :: 's' :: rest => some (1000000, rest)
  | 'u' :: 's' :: rest => some (1000, rest)
  | 'n' :: 's' :: rest => some (1, rest)
  | 'h' :: rest => some (3600000000000, rest)
  | 'm' :: rest => some (60000000000, rest)
  | 's' :: rest => some (1000000000, rest)
  | _ => none

/-- What a text begins with, read as a number. -/
inductive Leading where
  | number (x : Float) (rest : List Char)
  | none
  /-- An exponent mark without digits. -/
  | broken

def takeWord? (word text : List Char) : Option (List Char) :=
  if (text.take word.length).map Decimal.foldAscii = word then some (text.drop word.length)
  else none

/-- Numbers may have a sign, a point and an exponent; infinity and the undefined number have
names of three letters. -/
def leading (text : List Char) : Leading :=
  let (negative, unsigned) := Decimal.takeSign text
  match Decimal.takeUnsigned? unsigned with
  | some (x, rest) => .number (if negative then -x else x) rest
  | Option.none =>
    let afterPoint := match unsigned with
      | '.' :: rest => rest
      | rest => rest
    if (afterPoint.head?.map Decimal.isDigit).getD false then .broken
    else match takeWord? ['n', 'a', 'n'] text, takeWord? ['i', 'n', 'f'] text with
      | some rest, _ => .number Decimal.undefined rest
      | _, some rest => .number Decimal.infinity rest
      | _, _ => .none

/-- The pieces up to the first text that is no piece, as their sum. -/
def takePieces? : Nat → Int → List Char → Option Int
  | 0, total, _ => some total
  | fuel + 1, total, text =>
    match leading text with
    | .broken => none
    | .none => some total
    | .number x rest =>
      match takeUnit? rest with
      | none => some total
      | some (size, rest) =>
        takePieces? fuel (total + Decimal.clampInt64 (x * Decimal.ofInt size)) rest

def startsWithPiece (text : List Char) : Bool :=
  match leading text with
  | .number _ rest => (takeUnit? rest).isSome
  | _ => false

/-- Text behind the last piece does not count; a lone zero needs no unit. -/
def read? (text : List Char) : Option Duration :=
  let (negative, rest) := match text with
    | '-' :: rest => (true, rest)
    | rest => (false, rest)
  if rest = ['0'] then some ⟨0⟩
  else if startsWithPiece rest then
    (takePieces? rest.length 0 rest).map fun n => ⟨if negative then -n else n⟩
  else none

end Duration
end ClaimMapping.Time
