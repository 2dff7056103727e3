import ClaimMapping.Decimal.Numeral

namespace ClaimMapping.CommandLine.Toml

/-- A line end of two characters is one line feed, and a mark of the byte order in front does not
count. -/
def unifyLineEnds : List Char → List Char
  | '\r' :: '\n' :: rest => '\n' :: unifyLineEnds rest
  | c :: rest => c :: unifyLineEnds rest
  | [] => []

def sourceOf (text : String) : List Char :=
  match unifyLineEnds text.toList with
  | '\ufeff' :: rest => rest
  | rest => rest

def isBlank (c : Char) : Bool := c == ' ' || c == '\t'

def skipBlank (text : List Char) : List Char := text.dropWhile isBlank

def isCommentChar (c : Char) : Bool := c == '\t' || 0x20 ≤ c.toNat

/-- A comment stops before a control character, which then is out of place. -/
def skipComment : List Char → List Char
  | '#' :: rest => rest.dropWhile isCommentChar
  | text => text

/-- Blanks, comments and line ends, in any number. -/
def skipLines : Nat → List Char → List Char
  | 0, text => text
  | fuel + 1, text =>
    match skipComment (skipBlank text) with
    | '\n' :: rest => skipLines fuel rest
    | rest => rest

/-- Goes over blanks, comments and line ends. -/
def skipSpace (text : List Char) : List Char := skipLines text.length text

def isWordChar (c : Char) : Bool :=
  ('a' ≤ c && c ≤ 'z') || ('A' ≤ c && c ≤ 'Z') || Decimal.isDigit c || c == '_' || c == '-'

/-- The word at the front, and what follows. -/
def takeWord? (text : List Char) : Option (List Char × List Char) :=
  match text.takeWhile isWordChar with
  | [] => none
  | word => some (word, text.dropWhile isWordChar)

/-- What follows a sign that has to be at the front. -/
def dropSign? (sign : Char) : List Char → Option (List Char)
  | [] => none
  | c :: rest => if c = sign then some rest else none

/-- A sign with the word behind it, or nothing where the sign is missing. -/
def takeMarked? (sign : Char) (text : List Char) : Option (List Char × List Char) :=
  match dropSign? sign text with
  | none => some ([], text)
  | some rest => (takeWord? rest).map fun (word, rest) => (sign :: word, rest)

end ClaimMapping.CommandLine.Toml
