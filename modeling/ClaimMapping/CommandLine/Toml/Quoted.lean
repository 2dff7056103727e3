import ClaimMapping.CommandLine.Toml.Word
import ClaimMapping.Unicode.Scalar

namespace ClaimMapping.CommandLine.Toml

/-- The kind of a string: its quote, and whether it is long. A string in single quotes has no
escapes, and one in three quotes may go over lines. -/
structure Quotation where
  quote : Char
  long : Bool
  deriving DecidableEq, Repr

def Quotation.hasEscapes (q : Quotation) : Bool := q.quote == '"'

def isTextChar (c : Char) : Bool := c == '\t' || (0x20 ≤ c.toNat && c.toNat != 0x7F)

def letterEscape? : Char → Option Char
  | 'b' => some '\x08'
  | 't' => some '\t'
  | 'n' => some '\n'
  | 'f' => some '\x0c'
  | 'r' => some '\r'
  | '"' => some '"'
  | '\\' => some '\\'
  | _ => none

/-- What follows an escaped line end: blanks and line ends behind it are dropped. -/
def skipFold? (text : List Char) : Option (List Char) :=
  match skipBlank text with
  | '\n' :: rest => some (rest.dropWhile fun c => isBlank c || c == '\n')
  | _ => none

/-- What the escape behind a backslash stands for. -/
def takeEscape? (long : Bool) : List Char → Option (List Char × List Char)
  | [] => none
  | c :: rest =>
    match letterEscape? c with
    | some x => some ([x], rest)
    | none =>
      if c = 'u' then (Unicode.takeCode? 4 rest).map fun (x, rest) => ([x], rest)
      else if c = 'U' then (Unicode.takeCode? 8 rest).map fun (x, rest) => ([x], rest)
      else if long then (skipFold? (c :: rest)).map fun rest => ([], rest)
      else none

/-- Behind a first quote of a long string: its end, if three quotes close it. Two more may stand
before them. -/
def closeLong? (quote : Char) (rest : List Char) : Option (List Char × List Char) :=
  let more := (rest.take 4).takeWhile (· == quote)
  if more.length < 2 then none else some (more.drop 2, rest.drop more.length)

/-- The text up to the closing quotes, and what follows them. -/
def takeText? (q : Quotation) : Nat → List Char → Option (List Char × List Char)
  | 0, _ => none
  | _, [] => none
  | fuel + 1, c :: rest =>
    let more (part : List Char) (rest : List Char) :=
      (takeText? q fuel rest).map fun (text, rest) => (part ++ text, rest)
    if c = q.quote then
      if q.long then
        match closeLong? q.quote rest with
        | some found => some found
        | none => more [c] rest
      else some ([], rest)
    else if c = '\\' ∧ q.hasEscapes then
      (takeEscape? q.long rest).bind fun (part, rest) => more part rest
    else if isTextChar c ∨ (c = '\n' ∧ q.long) then more [c] rest
    else none

/-- A line end right behind three opening quotes does not count. -/
def skipFirstLine : List Char → List Char
  | '\n' :: rest => rest
  | text => text

/-- The kind of the string at the front, and what follows its opening quotes. -/
def openQuotes? : List Char → Option (Quotation × List Char)
  | '"' :: '"' :: '"' :: rest => some (⟨'"', true⟩, skipFirstLine rest)
  | '\'' :: '\'' :: '\'' :: rest => some (⟨'\'', true⟩, skipFirstLine rest)
  | '"' :: rest => some (⟨'"', false⟩, rest)
  | '\'' :: rest => some (⟨'\'', false⟩, rest)
  | _ => none

def takeQuoted? (text : List Char) : Option (String × List Char) := do
  let (q, rest) ← openQuotes? text
  let (content, rest) ← takeText? q (rest.length + 1) rest
  return (String.ofList content, rest)

def isLong (text : List Char) : Bool :=
  match openQuotes? text with
  | some (q, _) => q.long
  | none => false

/-- A bare word or a short string. -/
def takeName? (text : List Char) : Option (String × List Char) :=
  match takeWord? text with
  | some (word, rest) => some (String.ofList word, rest)
  | none => if isLong text then none else takeQuoted? text

/-- Names with points between them, and the blanks around. -/
def takeKey? : Nat → List Char → Option (List String × List Char)
  | 0, _ => none
  | fuel + 1, text => do
    let (name, rest) ← takeName? (skipBlank text)
    match skipBlank rest with
    | '.' :: rest =>
      let (names, rest) ← takeKey? fuel rest
      return (name :: names, rest)
    | rest => return ([name], rest)

end ClaimMapping.CommandLine.Toml
