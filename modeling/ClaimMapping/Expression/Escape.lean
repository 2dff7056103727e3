import ClaimMapping.Decimal.Numeral
import ClaimMapping.Text.Utf8
import ClaimMapping.Unicode.Scalar

namespace ClaimMapping.Expression

/-- Hexadecimal digits, where a plus sign may stand for the first one. -/
def hexCode? (digits : List Char) : Option Nat :=
  let body := match digits with
    | '+' :: rest => rest
    | rest => rest
  if !body.isEmpty && body.all Decimal.isHexDigit then some (Decimal.hexNumber body) else none

def isOctalDigit (c : Char) : Bool := '0' ≤ c && c ≤ '7'

def octalCode (digits : List Char) : Nat :=
  digits.foldl (fun n c => 8 * n + Decimal.digitValue c) 0

/-- The code of the next `count` hexadecimal digits. -/
def takeHex? (count : Nat) (text : List Char) : Option (Nat × List Char) := do
  let ds := text.take count
  if ds.length = count then
    let n ← hexCode? ds
    return (n, text.drop count)
  else none

/-- The code of three octal digits, the first of them already taken. -/
def takeOctal? (first : Char) : List Char → Option (Nat × List Char)
  | a :: b :: rest =>
    if '0' ≤ first ∧ first ≤ '3' ∧ isOctalDigit a ∧ isOctalDigit b then
      some (octalCode [first, a, b], rest)
    else none
  | _ => none

/-- The character of an escape by a letter or a sign. -/
def plainEscape? : Char → Option Char
  | 'a' => some '\x07'
  | 'b' => some '\x08'
  | 'v' => some '\x0b'
  | 'f' => some '\x0c'
  | 'n' => some '\n'
  | 'r' => some '\r'
  | 't' => some '\t'
  | '\\' => some '\\'
  | '?' => some '?'
  | '\x60' => some '\x60'
  | _ => none

/-- What the escape of `c` in quotes of the kind `quote` stands for. An escaped quote of the other
kind keeps its backslash. -/
def takeEscape? (quote c : Char) (rest : List Char) : Option (List Char × List Char) :=
  match plainEscape? c with
  | some x => some ([x], rest)
  | none =>
    if c = '\'' ∨ c = '"' then some (if c = quote then [c] else ['\\', c], rest)
    else
      let coded :=
        if c = 'x' then takeHex? 2 rest
        else if c = 'u' then takeHex? 4 rest
        else if c = 'U' then takeHex? 8 rest
        else takeOctal? c rest
      do
        let (n, rest) ← coded
        let x ← Unicode.charOf? n
        return ([x], rest)

/-- The text between the quotes of a string literal, which has none when an escape is bad. -/
def quotedContent? (quote : Char) : Nat → List Char → Option (List Char)
  | _, [] => some []
  | 0, _ :: _ => none
  | fuel + 1, '\\' :: c :: rest => do
    let (chars, rest) ← takeEscape? quote c rest
    let text ← quotedContent? quote fuel rest
    return chars ++ text
  | _ + 1, ['\\'] => none
  | fuel + 1, c :: rest => (quotedContent? quote fuel rest).map (c :: ·)

/-- The text between the quotes of a raw string literal: a backslash before the quote goes, any
other one stays. -/
def rawContent (quote : Char) : List Char → List Char
  | '\\' :: c :: rest => (if c = quote then [c] else ['\\', c]) ++ rawContent quote rest
  | c :: rest => c :: rawContent quote rest
  | [] => []

/-- The bytes between the quotes of a byte literal. -/
def bytesContent? : Nat → List Char → Option (List UInt8)
  | _, [] => some []
  | 0, _ :: _ => none
  | fuel + 1, '\\' :: c :: rest => do
    let (n, rest) ← if c = 'x' then takeHex? 2 rest else takeOctal? c rest
    let bytes ← bytesContent? fuel rest
    return UInt8.ofNat n :: bytes
  | _ + 1, ['\\'] => none
  | fuel + 1, c :: rest => (bytesContent? fuel rest).map (Text.Utf8.encodeChar c ++ ·)

end ClaimMapping.Expression
