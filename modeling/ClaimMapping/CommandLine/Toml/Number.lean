import ClaimMapping.CommandLine.Toml.Word
import ClaimMapping.Text.Search

namespace ClaimMapping.CommandLine.Toml

/-- The numbers of a TOML text, whose digits may have single underscores between them. -/
inductive Number where
  | integer (n : Int)
  | real (x : Float)

def isDigitOf (radix : Nat) (c : Char) : Bool :=
  match Decimal.hexValue? c with
  | some d => d < radix
  | none => false

/-- The digits at the front without their underscores, and what follows. -/
def takeDigits? (radix : Nat) (text : List Char) : Option (List Char × List Char) :=
  let (run, rest) := text.span fun c => c == '_' || isDigitOf radix c
  let parts := Text.splitChar '_' run
  if parts.any List.isEmpty then none else some (parts.flatten, rest)

/-- A sign among the digits of a word, where a plus sign cannot stand. -/
def takeMinus : List Char → List Char × List Char
  | '-' :: rest => (['-'], rest)
  | rest => ([], rest)

/-- Digits with no needless zero in front, and a sign. -/
def takeWhole? (text : List Char) : Option (List Char × List Char) := do
  let (sign, rest) := takeMinus text
  let (digits, rest) ← takeDigits? 10 rest
  if digits.head? = some '0' ∧ 1 < digits.length then none else some (sign ++ digits, rest)

/-- An integer in the digits of one radix. -/
def radixInteger? (radix : Nat) (text : List Char) : Option Int := do
  let (digits, rest) ← takeDigits? radix text
  if rest ≠ [] then none else Decimal.readInt64? radix digits

def integer? (text : List Char) : Option Int := do
  let (digits, rest) ← takeWhole? text
  if rest ≠ [] then none else Decimal.readInt64? 10 digits

/-- The digits of an exponent. A plus sign ends the word before it, so they may be in the next
one. -/
def takeExponent? (text rest : List Char) : Option (List Char × List Char) := do
  match text with
  | [] =>
    let (word, rest) ← takeWord? ((dropSign? '+' rest).getD rest)
    let (digits, left) ← takeDigits? 10 word
    if left ≠ [] then none else some (digits, rest)
  | text =>
    let (sign, text) := takeMinus text
    let (digits, left) ← takeDigits? 10 text
    if left ≠ [] then none else some (sign ++ digits, rest)

/-- What is left of a word behind the digits: nothing, or an exponent. -/
def takeScale? (left rest : List Char) : Option (List Char × List Char) :=
  match left with
  | [] => some ([], rest)
  | c :: left =>
    if c = 'e' ∨ c = 'E' then
      (takeExponent? left rest).map fun (digits, rest) => ('e' :: digits, rest)
    else none

def finite? (digits : List Char) : Option Float := do
  let x ← Decimal.readFloat? digits
  if x == Decimal.infinity || x == -Decimal.infinity then none else some x

/-- A number whose word has no point behind it. -/
def real? (word rest : List Char) : Option (Number × List Char) := do
  let (whole, left) ← takeWhole? word
  let (scale, rest) ← takeScale? left rest
  let x ← finite? (whole ++ scale)
  return (.real x, rest)

/-- A number of the digits `word` and the word behind the point in front of `rest`. -/
def pointed? (word rest : List Char) : Option (Number × List Char) := do
  let (fractional, rest) ← takeWord? rest
  let (whole, left) ← takeWhole? word
  if left ≠ [] then none
  else
    let (fraction, left) ← takeDigits? 10 fractional
    let (scale, rest) ← takeScale? left rest
    let x ← finite? (whole ++ '.' :: fraction ++ scale)
    return (.real x, rest)

def named? (word : List Char) : Option Float :=
  match String.ofList word with
  | "inf" => some Decimal.infinity
  | "-inf" => some (-Decimal.infinity)
  | "nan" => some Decimal.undefined
  | "-nan" => some (-Decimal.undefined)
  | _ => none

/-- The number that begins with a word. -/
def takeNumber? (word rest : List Char) : Option (Number × List Char) :=
  let whole (n : Option Int) := n.map fun n => (Number.integer n, rest)
  match word with
  | '0' :: 'x' :: digits => whole (radixInteger? 16 digits)
  | '0' :: 'o' :: digits => whole (radixInteger? 8 digits)
  | '0' :: 'b' :: digits => whole (radixInteger? 2 digits)
  | word =>
    if word.any fun c => c == 'e' || c == 'E' then real? word rest
    else
      match dropSign? '.' rest with
      | some rest => pointed? word rest
      | none =>
        match named? word with
        | some x => some (.real x, rest)
        | none => whole (integer? word)

end ClaimMapping.CommandLine.Toml
