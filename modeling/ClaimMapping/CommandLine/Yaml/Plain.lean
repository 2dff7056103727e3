import ClaimMapping.CommandLine.Yaml.Cursor

namespace ClaimMapping.CommandLine.Yaml

/-- The signs of flow collections. -/
def isFlowSign (c : Char) : Bool := c ∈ [',', '[', ']', '\x7b', '\x7d']

def startsFlowSign : List Char → Bool
  | [] => false
  | c :: _ => isFlowSign c

/-- Whether a colon before this text ends a key. -/
def endsKey (inFlow : Bool) (rest : List Char) : Bool :=
  endsWord rest || (inFlow && startsFlowSign rest)

/-- The part of a scalar at the front up to the next white space. -/
def plainWord (inFlow : Bool) : List Char → List Char
  | [] => []
  | c :: rest =>
    if isSpace c || (c == ':' && endsKey inFlow rest) || (inFlow && isFlowSign c) then []
    else c :: plainWord inFlow rest

/-- Whether white space holds a tab in the indentation of a line. -/
def hasTabIndent (indent : Nat) : Bool → Place → List Char → Bool
  | _, _, [] => false
  | isNext, p, c :: run =>
    (isNext && c == '\t' && p.column < indent)
      || hasTabIndent indent (isNext || isBreak c) (p.after c) run

/-- A scalar without quotes. It ends at a comment, at a colon that stands for itself, and in a block
at a line that is not indented. -/
structure Plain where
  text : List Char
  /-- Whether the scalar was left over a line break. -/
  broken : Bool
  behind : Cursor

def Plain.prepend (front : List Char) (p : Plain) : Plain := { p with text := front ++ p.text }

/-- The rest of a scalar behind the white space `run`. -/
def plainRest? (inFlow : Bool) (indent : Nat) : Nat → List Char → Cursor → Option Plain
  | 0, _, _ => none
  | fuel + 1, run, c =>
    if c.isDocumentMark || c.rest.head? == some '#' then some ⟨[], 0 < breakCount run, c⟩
    else
      let word := plainWord inFlow c.rest
      let front := if word.isEmpty then [] else fold run ++ word
      let (next, behind) := (c.advance word.length).span isSpace
      if next.isEmpty then some ⟨front, word.isEmpty && 0 < breakCount run, behind⟩
      else if hasTabIndent indent false (c.advance word.length).place next then none
      else if !inFlow && behind.column < indent then some ⟨front, 0 < breakCount next, behind⟩
      else (plainRest? inFlow indent fuel next behind).map (Plain.prepend front)

/-- The scalar at the front; lines that go on with it are indented by `indent`. -/
def takePlain? (inFlow : Bool) (indent : Nat) (c : Cursor) : Option Plain :=
  plainRest? inFlow indent (c.rest.length + 1) [] c

end ClaimMapping.CommandLine.Yaml
