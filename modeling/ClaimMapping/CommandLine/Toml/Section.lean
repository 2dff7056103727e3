import ClaimMapping.CommandLine.Toml.Value

namespace ClaimMapping.CommandLine.Toml

/-- A header with the pairs behind it. Pairs in front of all headers are a section without a
path. -/
structure Section where
  path : List String
  /-- Whether the header adds a table to an array. -/
  isItem : Bool
  pairs : Pairs

/-- What follows a header: whatever its comment holds is skipped. -/
def endHeader? (text : List Char) : Option (List Char) :=
  match skipBlank text with
  | [] => some []
  | '\n' :: rest => some rest
  | '#' :: rest => some ((rest.dropWhile (· != '\n')).drop 1)
  | _ => none

/-- A header from behind its opening brackets. -/
def headerRest? (isItem : Bool) (text : List Char) : Option (Section × List Char) := do
  let (path, rest) ← takeKey? (text.length + 1) text
  let rest ← dropSign? ']' rest
  let rest ← if isItem then dropSign? ']' rest else some rest
  let rest ← endHeader? rest
  return (⟨path, isItem, []⟩, rest)

/-- The header whose first bracket has been taken. -/
def takeHeader? : List Char → Option (Section × List Char)
  | '[' :: rest => headerRest? true rest
  | rest => headerRest? false rest

/-- What follows a pair. The line end behind a comment is left. -/
def endPair? (text : List Char) : Option (List Char) :=
  match skipBlank text with
  | [] => some []
  | '\n' :: rest => some rest
  | '#' :: rest => some (skipComment ('#' :: rest))
  | _ => none

def takePair? (text : List Char) : Option (List String × Value × List Char) := do
  let (key, rest) ← takeKey? (text.length + 1) text
  let rest ← dropSign? '=' rest
  let (v, rest) ← takeValue? (rest.length + 1) (skipBlank rest)
  let rest ← endPair? rest
  return (key, v, rest)

def Section.isRootless (s : Section) : Bool := s.path.isEmpty && s.pairs.isEmpty

/-- The section that has been begun and the ones behind it. -/
def sections? : Nat → Section → List Char → Option (List Section)
  | 0, _, _ => none
  | fuel + 1, s, text =>
    match skipSpace text with
    | [] => some [s]
    | '[' :: rest => do
      let (next, rest) ← takeHeader? rest
      let more ← sections? fuel next rest
      return s :: more
    | rest => do
      let (key, v, rest) ← takePair? rest
      let pairs ← put? v key s.pairs
      sections? fuel { s with pairs := pairs } rest

/-- All sections of a text; the one without a path only if it has pairs. -/
def readSections? (text : List Char) : Option (List Section) :=
  (sections? (text.length + 1) ⟨[], false, []⟩ text).map fun all =>
    all.filter fun s => !s.isRootless

end ClaimMapping.CommandLine.Toml
