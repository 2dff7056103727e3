import ClaimMapping.CommandLine.Yaml.Cursor
import ClaimMapping.CommandLine.Yaml.Token
import ClaimMapping.Unicode.Scalar

namespace ClaimMapping.CommandLine.Yaml

def isNameChar (c : Char) : Bool :=
  ('a' ≤ c && c ≤ 'z') || ('A' ≤ c && c ≤ 'Z') || Decimal.isDigit c || c == '_' || c == '-'

def endsAnchor : List Char → Bool
  | [] => true
  | c :: _ => isSpace c || c ∈ ['?', ':', ',', ']', '\x7d', '%', '@', '\x60']

/-- The name behind the sign at the front. -/
def takeAnchor? (c : Cursor) : Option (String × Cursor) :=
  let (name, c) := (c.advance 1).span isNameChar
  if name.isEmpty || !endsAnchor c.rest then none else some (String.ofList name, c)

def isTagChar (c : Char) : Bool :=
  isNameChar c || c ∈ [';', '/', '?', ':', '@', '&', '=', '+', '$', ',', '.', '!', '~', '*', '\'',
    '(', ')', '[', ']']

/-- The octet of a percent sign and two digits. -/
def octet? : List Char → Option Nat
  | '%' :: a :: b :: _ => Decimal.radixValue? 16 [a, b]
  | _ => none

/-- The octets of a character, told by the first one. -/
def octetCount? (octet : Nat) : Option Nat :=
  if octet < 0x80 then some 1
  else if octet < 0xC0 then none
  else if octet < 0xE0 then some 2
  else if octet < 0xF0 then some 3
  else if octet < 0xF8 then some 4
  else none

/-- Octets that go on with the code `code`, which are not unpacked. -/
def moreOctets? : Nat → Nat → List Char → Option Nat
  | 0, code, _ => some code
  | n + 1, code, text => do
    let octet ← octet? text
    if 0x80 ≤ octet ∧ octet < 0xC0 then moreOctets? n (256 * code + octet) (text.drop 3) else none

/-- The character of an escape, and the length of the escape. -/
def tagEscape? (text : List Char) : Option (Char × Nat) := do
  let octet ← octet? text
  let count ← octetCount? octet
  let code ← moreOctets? (count - 1) octet (text.drop 3)
  let x ← Unicode.charOf? code
  return (x, 3 * count)

def tagText? : Nat → Cursor → Option (List Char × Cursor)
  | 0, _ => none
  | fuel + 1, c =>
    match c.rest with
    | [] => some ([], c)
    | x :: _ => do
      if x = '%' then
        let (y, width) ← tagEscape? c.rest
        let (text, c) ← tagText? fuel (c.advance width)
        return (y :: text, c)
      else if isTagChar x then
        let (text, c) ← tagText? fuel (c.advance 1)
        return (x :: text, c)
      else some ([], c)

def takeTagText? (c : Cursor) : Option (List Char × Cursor) := tagText? (c.rest.length + 1) c

/-- The exclamation mark at the front, a name, and whether another exclamation mark closes it. -/
def takeHandle (c : Cursor) : List Char × Bool × Cursor :=
  let (name, c) := (c.advance 1).span isNameChar
  match c.rest with
  | '!' :: _ => (name, true, c.advance 1)
  | _ => (name, false, c)

def tagBody? (c : Cursor) : Option (Tag × Cursor) :=
  match c.rest.drop 1 with
  | '<' :: _ => do
    let (text, c) ← takeTagText? (c.advance 2)
    if text.isEmpty ∨ c.rest.head? ≠ some '>' then none
    else some (⟨"", String.ofList text⟩, c.advance 1)
  | _ => do
    let (name, closed, c) := takeHandle c
    let (text, c) ← takeTagText? c
    if closed then
      if text.isEmpty then none
      else some (⟨String.ofList ('!' :: name ++ ['!']), String.ofList text⟩, c)
    else if name.isEmpty && text.isEmpty then some (⟨"", "!"⟩, c)
    else some (⟨"!", String.ofList (name ++ text)⟩, c)

/-- The tag whose exclamation mark is at the front. -/
def takeTag? (c : Cursor) : Option (Tag × Cursor) := do
  let (tag, c) ← tagBody? c
  if endsWord c.rest then some (tag, c) else none

/-- One to nine digits. -/
def takeVersionPart? (c : Cursor) : Option Cursor :=
  let (digits, c) := c.span Decimal.isDigit
  if digits.isEmpty ∨ 9 < digits.length then none else some c

def takeVersion? (c : Cursor) : Option Cursor := do
  let c ← takeVersionPart? (c.skipWhile isBlank)
  if c.rest.head? = some '.' then takeVersionPart? (c.advance 1) else none

/-- A handle and the text that it stands for. -/
def takeTagRule? (c : Cursor) : Option Cursor := do
  let c := c.skipWhile isBlank
  if c.rest.head? ≠ some '!' then none
  else
    let (name, closed, c) := takeHandle c
    if !closed && !name.isEmpty then none
    else
      let (text, c) ← takeTagText? (c.skipWhile isBlank)
      if text.isEmpty || !endsWord c.rest then none else some c

/-- What stands behind a directive whose percent sign is at the front. Unknown ones are skipped. -/
def takeDirective? (c : Cursor) : Option Cursor := do
  let (name, c) := (c.advance 1).span isNameChar
  if name.isEmpty || !endsWord c.rest then none
  else
    let c ← match String.ofList name with
      | "YAML" => takeVersion? c
      | "TAG" => takeTagRule? c
      | _ => some (c.skipWhile fun x => !isBreak x)
    c.endLine?

end ClaimMapping.CommandLine.Yaml
