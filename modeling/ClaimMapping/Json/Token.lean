import ClaimMapping.Json.Number

namespace ClaimMapping.Json

/-- The tokens of a JSON text. A value without parts is one token. -/
inductive Token where
  | openBracket
  | closeBracket
  | openBrace
  | closeBrace
  | comma
  | colon
  | string (s : String)
  | number (n : Number)
  | bool (b : Bool)
  | null
  deriving DecidableEq

def isSpace (c : Char) : Bool := c == ' ' || c == '\t' || c == '\n' || c == '\r'

/-- The code unit of four hexadecimal digits. -/
def takeUnit? : List Char → Option (Nat × List Char)
  | a :: b :: c :: d :: rest => do
    let a ← Decimal.hexValue? a
    let b ← Decimal.hexValue? b
    let c ← Decimal.hexValue? c
    let d ← Decimal.hexValue? d
    return (4096 * a + 256 * b + 16 * c + d, rest)
  | _ => none

/-- The character after a backslash. A high surrogate needs its low surrogate right behind it. -/
def takeEscape? : List Char → Option (Char × List Char)
  | '"' :: rest => some ('"', rest)
  | '\\' :: rest => some ('\\', rest)
  | '/' :: rest => some ('/', rest)
  | 'b' :: rest => some ('\x08', rest)
  | 'f' :: rest => some ('\x0c', rest)
  | 'n' :: rest => some ('\n', rest)
  | 'r' :: rest => some ('\r', rest)
  | 't' :: rest => some ('\t', rest)
  | 'u' :: rest => do
    let (high, rest) ← takeUnit? rest
    if 0xD800 ≤ high ∧ high < 0xDC00 then
      match rest with
      | '\\' :: 'u' :: rest => do
        let (low, rest) ← takeUnit? rest
        if 0xDC00 ≤ low ∧ low < 0xE000 then
          return (Char.ofNat (0x10000 + (high - 0xD800) * 0x400 + (low - 0xDC00)), rest)
        else none
      | _ => none
    else if 0xDC00 ≤ high ∧ high < 0xE000 then none
    else return (Char.ofNat high, rest)
  | _ => none

/-- The characters up to the closing quote, and what follows it. Controls must be escaped. -/
def takeString? : Nat → List Char → Option (List Char × List Char)
  | 0, _ => none
  | _, [] => none
  | _, '"' :: rest => some ([], rest)
  | fuel + 1, '\\' :: rest => do
    let (c, rest) ← takeEscape? rest
    let (text, rest) ← takeString? fuel rest
    return (c :: text, rest)
  | fuel + 1, c :: rest =>
    if c.toNat < 0x20 then none
    else do
      let (text, rest) ← takeString? fuel rest
      return (c :: text, rest)

/-- One token at the front of a text that does not start with space. -/
def takeToken? : List Char → Option (Token × List Char)
  | '[' :: rest => some (.openBracket, rest)
  | ']' :: rest => some (.closeBracket, rest)
  | '\x7b' :: rest => some (.openBrace, rest)
  | '\x7d' :: rest => some (.closeBrace, rest)
  | ',' :: rest => some (.comma, rest)
  | ':' :: rest => some (.colon, rest)
  | 't' :: 'r' :: 'u' :: 'e' :: rest => some (.bool true, rest)
  | 'f' :: 'a' :: 'l' :: 's' :: 'e' :: rest => some (.bool false, rest)
  | 'n' :: 'u' :: 'l' :: 'l' :: rest => some (.null, rest)
  | '"' :: rest => (takeString? (rest.length + 1) rest).map fun (s, rest) =>
    (.string (String.ofList s), rest)
  | text => (takeNumber? text).map fun (n, rest) => (.number n, rest)

def tokensUpTo : Nat → List Char → Option (List Token)
  | _, [] => some []
  | 0, _ :: _ => none
  | fuel + 1, c :: text =>
    if isSpace c then tokensUpTo fuel text
    else do
      let (token, rest) ← takeToken? (c :: text)
      let tokens ← tokensUpTo fuel rest
      return token :: tokens

/-- Absent when some part of the text is no token. -/
def tokens? (text : List Char) : Option (List Token) := tokensUpTo text.length text

end ClaimMapping.Json
