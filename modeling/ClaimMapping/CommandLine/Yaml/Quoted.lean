import ClaimMapping.CommandLine.Yaml.Cursor
import ClaimMapping.Unicode.Scalar

namespace ClaimMapping.CommandLine.Yaml

def letterEscape? : Char → Option Char
  | '0' => some '\x00'
  | 'a' => some '\x07'
  | 'b' => some '\x08'
  | 't' => some '\t'
  | '\t' => some '\t'
  | 'n' => some '\n'
  | 'v' => some '\x0b'
  | 'f' => some '\x0c'
  | 'r' => some '\r'
  | 'e' => some '\x1b'
  | ' ' => some ' '
  | '"' => some '"'
  | '\'' => some '\''
  | '\\' => some '\\'
  | 'N' => some '\u0085'
  | '_' => some '\u00a0'
  | 'L' => some '\u2028'
  | 'P' => some '\u2029'
  | _ => none

/-- The digits behind an escape that names a code point. -/
def codeWidth? : Char → Option Nat
  | 'x' => some 2
  | 'u' => some 4
  | 'U' => some 8
  | _ => none

/-- The character of the escape behind a backslash, and the length of the escape. -/
def escape? : List Char → Option (Char × Nat)
  | [] => none
  | c :: rest =>
    match letterEscape? c with
    | some x => some (x, 1)
    | none => do
      let width ← codeWidth? c
      let (x, _) ← Unicode.takeCode? width rest
      return (x, width + 1)

/-- White space and what it stands for. No document begins inside of a scalar. -/
def takeFolded? (stands : List Char → List Char) (c : Cursor) : Option (List Char × Cursor) :=
  let (run, c) := c.span isSpace
  if c.isDocumentMark then none else some (stands run, c)

/-- Behind an escaped line break every further one counts. -/
def escapedBreaks (run : List Char) : List Char := List.replicate (breakCount run) '\n'

/-- Single quotes know no escape but the doubled quote. -/
def singleQuoted? : Nat → Cursor → Option (List Char × Cursor)
  | 0, _ => none
  | fuel + 1, c =>
    match c.rest with
    | [] => none
    | '\'' :: '\'' :: _ => do
      let (text, c) ← singleQuoted? fuel (c.advance 2)
      return ('\'' :: text, c)
    | '\'' :: _ => some ([], c.advance 1)
    | x :: _ => do
      let (part, c) ← if isSpace x then takeFolded? fold c else some ([x], c.advance 1)
      let (text, c) ← singleQuoted? fuel c
      return (part ++ text, c)

/-- What the part of a text in double quotes at the front stands for. -/
def doubleQuotedPart? (c : Cursor) : Option (List Char × Cursor) :=
  match c.rest with
  | [] => none
  | '\\' :: rest =>
    if breakLength rest = 0 then do
      let (x, width) ← escape? rest
      return ([x], c.advance (width + 1))
    else takeFolded? escapedBreaks (c.advance 1).skipBreak
  | x :: _ => if isSpace x then takeFolded? fold c else some ([x], c.advance 1)

def doubleQuoted? : Nat → Cursor → Option (List Char × Cursor)
  | 0, _ => none
  | fuel + 1, c =>
    if c.rest.head? == some '"' then some ([], c.advance 1)
    else do
      let (part, c) ← doubleQuotedPart? c
      let (text, c) ← doubleQuoted? fuel c
      return (part ++ text, c)

/-- The text of the scalar whose opening quote is at the front. -/
def takeQuoted? (c : Cursor) : Option (List Char × Cursor) :=
  match c.rest with
  | '\'' :: rest => singleQuoted? (rest.length + 1) (c.advance 1)
  | '"' :: rest => doubleQuoted? (rest.length + 1) (c.advance 1)
  | _ => none

end ClaimMapping.CommandLine.Yaml
