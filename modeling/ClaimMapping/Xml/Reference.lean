import ClaimMapping.Decimal.Numeral
import ClaimMapping.Text.Search
import ClaimMapping.Unicode.Scalar
import ClaimMapping.Xml.Defect

namespace ClaimMapping.Xml

def entity? (name : List Char) : Option Char :=
  match String.ofList name with
  | "lt" => some '<'
  | "gt" => some '>'
  | "amp" => some '&'
  | "apos" => some '\''
  | "quot" => some '"'
  | _ => none

/-- Decimal digits, or hexadecimal ones behind an `x`. -/
def characterNumber? : List Char → Option Nat
  | 'x' :: digits =>
    if !digits.isEmpty && digits.all Decimal.isHexDigit then some (Decimal.hexNumber digits)
    else none
  | digits =>
    if !digits.isEmpty && digits.all Decimal.isDigit then some (Decimal.natValue digits) else none

/-- Neither zero nor a surrogate is a character. -/
def numbered? (digits : List Char) : Option Char := do
  let n ← characterNumber? digits
  if n = 0 then none else Unicode.charOf? n

/-- What a reference stands for: one of the five predefined entities, or a character by its
number. -/
def reference (name : List Char) : Except Defect Char :=
  match name with
  | '#' :: digits =>
    match numbered? digits with
    | some c => .ok c
    | none => .error (.badCharacterReference (String.ofList digits))
  | _ =>
    match entity? name with
    | some c => .ok c
    | none => .error (.unknownReference (String.ofList name))

/-- The name up to the semicolon; another ampersand comes too early. -/
def takeReference : List Char → Except Defect (List Char × List Char)
  | [] => .error .unterminatedReference
  | ';' :: rest => .ok ([], rest)
  | '&' :: _ => .error .unterminatedReference
  | c :: rest => (takeReference rest).map fun (name, rest) => (c :: name, rest)

def unescapeUpTo : Nat → List Char → Except Defect (List Char)
  | _, [] => .ok []
  | 0, _ :: _ => .ok []
  | fuel + 1, '&' :: rest => do
    let (name, rest) ← takeReference rest
    let c ← reference name
    let text ← unescapeUpTo fuel rest
    return c :: text
  | fuel + 1, c :: rest => (unescapeUpTo fuel rest).map (c :: ·)

/-- The text with every reference replaced by its character. -/
def unescape (text : List Char) : Except Defect (List Char) := unescapeUpTo text.length text

end ClaimMapping.Xml
