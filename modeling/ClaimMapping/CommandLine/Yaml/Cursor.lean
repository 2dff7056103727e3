import ClaimMapping.Text.Search

namespace ClaimMapping.CommandLine.Yaml

def isBlank (c : Char) : Bool := c == ' ' || c == '\t'

def isBreak (c : Char) : Bool := c == '\n' || c == '\r'

def isSpace (c : Char) : Bool := isBlank c || isBreak c

/-- Whether a word that stops here is complete: white space follows, or nothing. -/
def endsWord : List Char → Bool
  | [] => true
  | c :: _ => isSpace c

def startsBlank : List Char → Bool
  | [] => false
  | c :: _ => isBlank c

/-- The characters of the line break at the front. -/
def breakLength : List Char → Nat
  | '\r' :: '\n' :: _ => 2
  | c :: _ => if isBreak c then 1 else 0
  | [] => 0

/-- A position in a YAML text. Lines end at line feeds; a carriage return is a line break too, but
only one in front of a line feed begins a new line by itself. -/
structure Place where
  index : Nat
  line : Nat
  column : Nat
  deriving DecidableEq, Repr

def Place.after (p : Place) (c : Char) : Place :=
  if c = '\n' then ⟨p.index + 1, p.line + 1, 0⟩ else ⟨p.index + 1, p.line, p.column + 1⟩

/-- The text that is left, and where it begins. -/
structure Cursor where
  rest : List Char
  place : Place
  deriving DecidableEq, Repr

namespace Cursor

/-- A text ends at its first null character. -/
def start (text : List Char) : Cursor := ⟨text.takeWhile (· != '\x00'), ⟨0, 1, 0⟩⟩

def column (c : Cursor) : Nat := c.place.column

def atEnd (c : Cursor) : Bool := c.rest.isEmpty

def advance (n : Nat) (c : Cursor) : Cursor :=
  ⟨c.rest.drop n, (c.rest.take n).foldl Place.after c.place⟩

/-- The longest run of characters with a property, and what follows. -/
def span (p : Char → Bool) (c : Cursor) : List Char × Cursor :=
  let run := c.rest.takeWhile p
  (run, c.advance run.length)

def skipWhile (p : Char → Bool) (c : Cursor) : Cursor := (c.span p).2

def skipBreak (c : Cursor) : Cursor := c.advance (breakLength c.rest)

/-- Three minus signs or points alone at the beginning of a line. -/
def isMark (sign : Char) (c : Cursor) : Bool :=
  c.column == 0 && Text.startsWith [sign, sign, sign] c.rest && endsWord (c.rest.drop 3)

/-- Marks delimit documents, and no scalar goes over them. -/
def isDocumentMark (c : Cursor) : Bool := c.isMark '-' || c.isMark '.'

/-- The next line, when only blanks and a comment are left on this one. -/
def endLine? (c : Cursor) : Option Cursor :=
  let c := c.skipWhile isBlank
  let c := if c.rest.head? == some '#' then c.skipWhile fun x => !isBreak x else c
  match c.rest with
  | [] => some c
  | x :: _ => if isBreak x then some c.skipBreak else none

end Cursor

/-- The line breaks in a run of white space. -/
def breakCount : List Char → Nat
  | [] => 0
  | '\r' :: '\n' :: run => breakCount run + 1
  | c :: run => breakCount run + if isBreak c then 1 else 0

/-- What white space inside a scalar stands for: one line break is a blank, and of several ones the
first does not count. Blanks around line breaks are dropped. -/
def fold (run : List Char) : List Char :=
  match breakCount run with
  | 0 => run
  | 1 => [' ']
  | n + 2 => List.replicate (n + 1) '\n'

end ClaimMapping.CommandLine.Yaml
