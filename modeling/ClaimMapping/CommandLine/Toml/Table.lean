import ClaimMapping.CommandLine.Document
import ClaimMapping.CommandLine.Toml.Section

namespace ClaimMapping.CommandLine.Toml

/-- A table whose first key is this one stands for the moment that is its value. -/
def momentKey : String := "$__toml_private_datetime"

/-- Adds an entry to a table, whose keys differ. -/
def addEntry? (entries : KeyMap Document) (name : String) (d : Document) :
    Option (KeyMap Document) :=
  if KeyMap.contains entries name then none else some (KeyMap.insert entries name d)

def Number.document : Number → Document
  | .integer n => .integer n
  | .real x => .real x

mutual

def Value.document? : Value → Option Document
  | .bool b => some (.bool b)
  | .number n => some n.document
  | .text s => some (.text s)
  | .moment text => (momentText? text).map .text
  | .list items => (documents? items).map .list
  | .table _ pairs =>
    match pairs with
    | (name, .text s) :: rest =>
      if name = momentKey then (momentText? s.toList).map .text
      else (members? [(name, .text s)] rest).map .table
    | pairs => (members? [] pairs).map .table

def documents? : List Value → Option (List Document)
  | [] => some []
  | v :: vs => do
    let d ← v.document?
    let ds ← documents? vs
    return d :: ds

def members? : KeyMap Document → List (String × Value) → Option (KeyMap Document)
  | entries, [] => some entries
  | entries, (name, v) :: pairs => do
    if name = momentKey ∧ entries.isEmpty then none
    else
      let d ← v.document?
      let entries ← addEntry? entries name d
      members? entries pairs

end

/-- The sections of a text, and the positions of those whose pairs have been taken. -/
structure Assembly where
  sections : Array Section
  taken : List Nat

namespace Assembly

def path (a : Assembly) (i : Nat) : List String :=
  match a.sections[i]? with
  | some s => s.path
  | none => []

/-- The first position from `start` on and before `stop` with a property. -/
def find? (p : Nat → Bool) (start stop : Nat) : Option Nat :=
  (List.range' start (stop - start)).find? p

/-- The next section, not taken yet, whose path begins with some names. -/
def next? (a : Assembly) (names : List String) (start stop : Nat) : Option Nat :=
  find? (fun i => names.isPrefixOf (a.path i) && !a.taken.contains i) start stop

/-- The next header that adds a table to the array of the header at `i`. -/
def nextItem (a : Assembly) (i stop : Nat) : Nat :=
  let isItem (j : Nat) : Bool :=
    match a.sections[j]? with
    | some s => s.isItem && s.path == a.path i
    | none => false
  (find? isItem (i + 1) stop).getD stop

def take (a : Assembly) (i : Nat) : Assembly := { a with taken := i :: a.taken }

end Assembly

/-- A table that is put together. -/
structure Site where
  /-- The length of its path. -/
  depth : Nat
  /-- A section whose path begins with the one of the table. -/
  parent : Nat
  /-- Where to look for further sections. -/
  start : Nat
  stop : Nat

mutual

/-- The table at a site, with the entries so far and pairs that are still to be added. Each table
under a path takes the pairs of its own section and looks for the sections under longer paths, each
of which belongs to one table only. -/
def table? : Nat → Site → KeyMap Document → Pairs → Assembly → Option (Document × Assembly)
  | 0, _, _, _, _ => none
  | fuel + 1, site, entries, (name, v) :: pairs, a =>
    if name = momentKey ∧ entries.isEmpty then
      match v with
      | .text s => (momentText? s.toList).map fun s => (.text s, a)
      | _ => none
    else do
      let d ← v.document?
      let entries ← addEntry? entries name d
      table? fuel site entries pairs a
  | fuel + 1, site, entries, [], a =>
    match a.next? ((a.path site.parent).take site.depth) site.start site.stop with
    | none => some (.table entries, a)
    | some i =>
      match a.sections[i]? with
      | none => none
      | some s =>
        if i ≠ site.parent ∧ s.path = a.path site.parent then none
        else
          let parent := if s.path.length < (a.path site.parent).length then i else site.parent
          match s.path[site.depth]? with
          | none =>
            if s.isItem then none
            else table? fuel { site with parent := parent, start := i } entries s.pairs (a.take i)
          | some name => do
            if name = momentKey ∧ entries.isEmpty then none
            else
              let (d, a) ← if s.isItem ∧ site.depth + 1 = s.path.length then
                  items? fuel site.depth i site.stop a
                else table? fuel ⟨site.depth + 1, i, 0, site.stop⟩ [] [] a
              let entries ← addEntry? entries name d
              table? fuel { site with parent := parent, start := i + 1 } entries [] a

/-- The tables of an array whose first header is the section at `i`. The array reaches from one of
its headers to the next. -/
def items? : Nat → Nat → Nat → Nat → Assembly → Option (Document × Assembly)
  | 0, _, _, _, _ => none
  | fuel + 1, depth, i, stop, a =>
    if i = stop then some (.list [], a)
    else
      match a.sections[i]? with
      | none => none
      | some s =>
        let next := a.nextItem i stop
        do
          let (d, a) ← table? fuel ⟨depth + 1, i, 0, next⟩ [] s.pairs (a.take i)
          let (more, a) ← items? fuel depth next stop a
          match more with
          | .list ds => return (.list (d :: ds), a)
          | _ => none

end

/-- Enough for every pair, and for every name of every path with its array. -/
def effort (sections : List Section) : Nat :=
  sections.foldl (fun n s => n + s.pairs.length + 2 * s.path.length + 5) 2

def assemble? (sections : List Section) : Option Document :=
  (table? (effort sections) ⟨0, 0, 0, sections.length⟩ [] [] ⟨sections.toArray, []⟩).map Prod.fst

/-- A request file in TOML. -/
def read? (source : String) : Option Document := (readSections? (sourceOf source)).bind assemble?

end ClaimMapping.CommandLine.Toml
