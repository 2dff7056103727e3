import ClaimMapping.CommandLine.Yaml.Cursor
import ClaimMapping.Decimal.Numeral

namespace ClaimMapping.CommandLine.Yaml

/-- What happens to the line breaks at the end. -/
inductive Chomp where
  /-- One is kept. -/
  | clip
  | strip
  | keep
  deriving DecidableEq, Repr

/-- The signs behind the one that begins a scalar. -/
structure BlockHeader where
  chomp : Chomp
  /-- How much the lines are indented, when that is said. -/
  depth : Option Nat
  deriving DecidableEq, Repr

def takeChomp (c : Cursor) : Option Chomp × Cursor :=
  match c.rest with
  | '+' :: _ => (some .keep, c.advance 1)
  | '-' :: _ => (some .strip, c.advance 1)
  | _ => (none, c)

def takeDepth (c : Cursor) : Option Nat × Cursor :=
  match c.rest with
  | x :: _ => if Decimal.isDigit x then (some (Decimal.digitValue x), c.advance 1) else (none, c)
  | [] => (none, c)

/-- The two signs may come in either order. -/
def takeHeader? (c : Cursor) : Option (BlockHeader × Cursor) :=
  let (first, c) := takeChomp c
  let (depth, c) := takeDepth c
  let (second, c) := if first.isSome then (none, c) else takeChomp c
  if depth = some 0 then none
  else c.endLine?.map fun c => (⟨(first.orElse fun _ => second).getD .clip, depth⟩, c)

/-- Empty lines up to the next line with text. -/
structure EmptyLines where
  count : Nat
  /-- The deepest of their indentations and the one of the next line. -/
  deepest : Nat
  behind : Cursor

/-- Skips the indentation, up to `indent` when that is known. -/
def skipIndent (indent : Option Nat) (c : Cursor) : Cursor :=
  let blanks := (c.rest.takeWhile (· == ' ')).length
  match indent with
  | none => c.advance blanks
  | some n => c.advance (min blanks (n - c.column))

/-- A tab cannot indent. -/
def takeEmptyLines? (indent : Option Nat) : Nat → Cursor → Option EmptyLines
  | 0, _ => none
  | fuel + 1, c =>
    let c := skipIndent indent c
    let isInside := match indent with
      | none => true
      | some n => decide (c.column < n)
    if isInside && c.rest.head? == some '\t' then none
    else if breakLength c.rest = 0 then some ⟨0, c.column, c⟩
    else
      (takeEmptyLines? indent fuel c.skipBreak).map fun e =>
        { e with count := e.count + 1, deepest := max c.column e.deepest }

/-- The line breaks between a line and the next one. -/
structure Joint where
  /-- Whether the line before ends in a line break. -/
  pending : Bool
  /-- The empty lines after it. -/
  empty : Nat
  deriving DecidableEq, Repr

def Joint.all (j : Joint) : List Char :=
  (if j.pending then ['\n'] else []) ++ List.replicate j.empty '\n'

def Joint.folded (j : Joint) : List Char :=
  if j.empty = 0 then [' '] else List.replicate j.empty '\n'

/-- The lines of a block scalar from `c` on, kept as they are or folded, where a line break between
two lines that are not indented further becomes a blank. `isFlat` tells whether the line before may
be folded. -/
def blockLines? (folded : Bool) (indent : Nat) :
    Nat → Joint → Bool → Cursor → Option (List Char × Joint × Cursor)
  | 0, _, _, _ => none
  | fuel + 1, joint, isFlat, c =>
    if c.column ≠ indent ∨ c.atEnd then some ([], joint, c)
    else
      let nextFlat := !startsBlank c.rest
      let space := if folded && joint.pending && isFlat && nextFlat then joint.folded else joint.all
      let (line, c) := c.span fun x => !isBreak x
      if c.atEnd then some (space ++ line, ⟨false, 0⟩, c)
      else do
        let e ← takeEmptyLines? (some indent) (c.rest.length + 1) c.skipBreak
        let (text, last, behind) ← blockLines? folded indent fuel ⟨true, e.count⟩ nextFlat e.behind
        return (space ++ line ++ text, last, behind)

def Chomp.ending : Chomp → Joint → List Char
  | .strip, _ => []
  | .clip, j => if j.pending then ['\n'] else []
  | .keep, j => j.all

/-- The text of the scalar whose first sign is at the front, inside of a block that is indented by
`parent`, if there is one. -/
def takeBlock? (folded : Bool) (parent : Option Nat) (c : Cursor) :
    Option (List Char × Cursor) := do
  let (header, c) ← takeHeader? (c.advance 1)
  let known := header.depth.map fun n => parent.getD 0 + n
  let e ← takeEmptyLines? known (c.rest.length + 1) c
  let least := match parent with
    | none => 1
    | some n => n + 1
  let indent := known.getD (max e.deepest least)
  let fuel := c.rest.length + 1
  let (text, last, behind) ← blockLines? folded indent fuel ⟨false, e.count⟩ true e.behind
  return (text ++ header.chomp.ending last, behind)

end ClaimMapping.CommandLine.Yaml
