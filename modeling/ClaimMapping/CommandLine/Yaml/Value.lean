import ClaimMapping.CommandLine.Document
import ClaimMapping.CommandLine.Yaml.Layout
import ClaimMapping.CommandLine.Yaml.Node

namespace ClaimMapping.CommandLine.Yaml

/-- What the nodes of a document mean. Plain scalars denote numbers, truth values and null; a tag
can ask for one of these. -/
inductive Value where
  /-- A scalar that is not what its tag says, or a reference to a node around it. -/
  | bad
  | null
  | bool (b : Bool)
  | integer (n : Int)
  /-- The text of a number, read only when it is wanted. -/
  | real (text : String)
  | text (s : String)
  | list (items : List Value)
  /-- Only what has text for a key. -/
  | table (entries : List (String × Value))

namespace Value

def infinityNames : List String :=
  [".inf", ".Inf", ".INF", "+.inf", "+.Inf", "+.INF", "-.inf", "-.Inf", "-.INF"]

def undefinedNames : List String := [".nan", "NaN", ".NAN"]

def isReal (s : String) : Bool :=
  s ∈ infinityNames || s ∈ undefinedNames || (Decimal.readFloat? s.toList).isSome

/-- Hexadecimal and octal digits behind a prefix, and decimal ones. A second sign may follow a plus
sign, and a sign may follow a prefix. -/
def integer? (text : List Char) : Option Int :=
  let marked := match text with
    | '0' :: 'x' :: digits => Decimal.readInt64? 16 digits
    | '0' :: 'o' :: digits => Decimal.readInt64? 8 digits
    | '+' :: rest => Decimal.readInt64? 10 rest
    | _ => none
  marked.orElse fun _ => Decimal.readInt64? 10 text

def ofPlain (s : String) : Value :=
  match s with
  | "~" => .null
  | "null" => .null
  | "true" => .bool true
  | "false" => .bool false
  | s =>
    match integer? s.toList with
    | some n => .integer n
    | none => if isReal s then .real s else .text s

/-- A plain scalar under one of the tags that every document knows. -/
def ofTagged (kind s : String) : Value :=
  match kind with
  | "bool" => if s = "true" then .bool true else if s = "false" then .bool false else .bad
  | "int" => ((Decimal.readInt64? 10 s.toList).map .integer).getD .bad
  | "float" => if isReal s then .real s else .bad
  | "null" => if s = "~" ∨ s = "null" then .null else .bad
  | _ => .text s

def ofScalar (plain : Bool) (tag : Option Tag) (s : String) : Value :=
  if !plain then .text s
  else match tag with
    | none => ofPlain s
    | some ⟨"!!", kind⟩ => ofTagged kind s
    | some _ => .text s

/-- The entries of keys and values by turns. What is bad cannot be a key and is passed over, and of
equal keys the last counts. -/
def pairUp (entries : KeyMap Value) : List Value → KeyMap Value
  | [] => entries
  | [_] => entries
  | key :: value :: rest =>
    match key with
    | .bad => pairUp entries (value :: rest)
    | .text name => pairUp (KeyMap.insert entries name value) rest
    | _ => pairUp entries rest

end Value

/-- The anchors so far. Each has a number of its own, and a name belongs to the last one. -/
structure Anchors where
  count : Nat
  numbers : KeyMap Nat
  /-- The values of the anchored nodes that are complete. -/
  known : List (Nat × Value)

namespace Anchors

def empty : Anchors := ⟨0, [], []⟩

/-- Gives the next number to an anchor, if there is one. -/
def enter (a : Anchors) : Option String → Option Nat × Anchors
  | none => (none, a)
  | some name =>
    (some a.count, { a with count := a.count + 1, numbers := KeyMap.insert a.numbers name a.count })

def complete (a : Anchors) (number : Option Nat) (v : Value) : Anchors :=
  match number with
  | none => a
  | some n => { a with known := (n, v) :: a.known }

/-- The value of the last node with a name, which is bad inside of that node. -/
def value? (a : Anchors) (name : String) : Option Value :=
  (KeyMap.get? a.numbers name).map fun n => (a.known.lookup n).getD .bad

end Anchors

namespace Node

mutual

/-- The value of a node; a reference to a name that has not been seen is refused. -/
def value? : Node → Anchors → Option (Value × Anchors)
  | .reference name, a => (a.value? name).map fun v => (v, a)
  | .scalar anchor tag plain text, a =>
    let (number, a) := a.enter anchor
    let v := Value.ofScalar plain tag text
    some (v, a.complete number v)
  | .sequence anchor items, a => do
    let (number, a) := a.enter anchor
    let (values, a) ← values? items a
    return (.list values, a.complete number (.list values))
  | .mapping anchor nodes, a => do
    let (number, a) := a.enter anchor
    let (values, a) ← values? nodes a
    let v := Value.table (Value.pairUp [] values)
    return (v, a.complete number v)

def values? : List Node → Anchors → Option (List Value × Anchors)
  | [], a => some ([], a)
  | node :: nodes, a => do
    let (v, a) ← node.value? a
    let (vs, a) ← values? nodes a
    return (v :: vs, a)

end

end Node

namespace Value

mutual

/-- The names of infinity and of the undefined number that begin with a point are no numbers for a
request. -/
def document? : Value → Option Document
  | .bad => some .null
  | .null => some .null
  | .bool b => some (.bool b)
  | .integer n => some (.integer n)
  | .real s => (Decimal.readFloat? s.toList).map .real
  | .text s => some (.text s)
  | .list items => (documents? items).map .list
  | .table entries => (members? entries).map .table

def documents? : List Value → Option (List Document)
  | [] => some []
  | v :: vs => do
    let d ← v.document?
    let ds ← documents? vs
    return d :: ds

def members? : List (String × Value) → Option (List (String × Document))
  | [] => some []
  | (name, v) :: entries => do
    let d ← v.document?
    let ds ← members? entries
    return (name, d) :: ds

end

end Value

/-- A request file in YAML. A text without a document is an empty table. -/
def read? (source : String) : Option Document := do
  let tokens ← tokens? source.toList
  match ← Node.root? tokens with
  | none => return .table []
  | some node =>
    let (v, _) ← node.value? .empty
    v.document?

end ClaimMapping.CommandLine.Yaml
