import ClaimMapping.CommandLine.Document

namespace ClaimMapping.CommandLine

/-- One step of a path. A key at the top of a request file may name a member of a table or an item
of a list, as in `a.b[0]`, and sets it there. -/
inductive Step where
  | member (name : String)
  /-- A position, counted from the end of the list when it is negative. -/
  | item (index : Int)
  deriving DecidableEq, Repr

namespace Step

def isNameChar (c : Char) : Bool :=
  ('a' ≤ c && c ≤ 'z') || ('A' ≤ c && c ≤ 'Z') || ('0' ≤ c && c ≤ '9') || c == ' ' || c == '_'
    || c == '-'

def takeName? (text : List Char) : Option (Step × List Char) :=
  match text.takeWhile isNameChar with
  | [] => none
  | name => some (.member (String.ofList name), text.dropWhile isNameChar)

def skipBlank (text : List Char) : List Char := text.dropWhile fun c => c == ' ' || c == '\t'

def takeMinus : List Char → List Char × List Char
  | '-' :: rest => (['-'], rest)
  | rest => ([], rest)

/-- An index from behind its opening bracket. -/
def takeIndex? (text : List Char) : Option (Step × List Char) := do
  let (sign, rest) := takeMinus (skipBlank text)
  let (digits, rest) := Decimal.takeDigits rest
  let n ← Decimal.readInt64? 10 (sign ++ digits)
  match skipBlank rest with
  | ']' :: rest => return (.item n, rest)
  | _ => none

def takeMore? : Nat → List Char → Option (List Step)
  | _, [] => some []
  | 0, _ => none
  | fuel + 1, c :: rest => do
    let (step, rest) ←
      if c = '.' then takeName? rest else if c = '[' then takeIndex? rest else none
    let steps ← takeMore? fuel rest
    return step :: steps

/-- The steps of a path; a key of another form is one name. -/
def ofKey (key : String) : List Step :=
  let steps := do
    let (first, rest) ← takeName? key.toList
    let steps ← takeMore? rest.length rest
    return first :: steps
  steps.getD [.member key]

end Step

namespace Document

/-- What is no table counts as an empty one. -/
def asTable (d : Document) : KeyMap Document := d.entries?.getD []

/-- What is no list counts as an empty one. -/
def asList : Document → List Document
  | .list items => items
  | _ => []

mutual

/-- Sets one name; a table is merged into what is there. -/
def setName (root : KeyMap Document) (name : String) : Document → KeyMap Document
  | .table entries =>
    KeyMap.insert root name (mergeAll ((KeyMap.get? root name).getD (.table [])) entries)
  | d => KeyMap.insert root name d

/-- Sets the names of a table one by one. With nothing to set, what is there stays. -/
def mergeAll (target : Document) : List (String × Document) → Document
  | [] => target
  | (name, d) :: entries => mergeAll (.table (setName target.asTable name d)) entries

end

/-- The longest list that an index can ask for. The bound is chosen: nothing says where a list
outgrows the memory. -/
def listLimit : Nat := 0x1000000

/-- The position of an index, if there is one. -/
def position? (length : Nat) (index : Int) : Option Nat :=
  let i := if index < 0 then index + length else index
  if 0 ≤ i ∧ i < listLimit then some i.toNat else none

/-- Lists grow by nulls up to a position. -/
def padTo (i : Nat) (items : List Document) : List Document :=
  items ++ List.replicate (i + 1 - items.length) .null

/-- Sets what a path leads to. Tables and lists are made where they are missing. -/
def put? (d : Document) : List Step → Document → Option Document
  | [], _ => some d
  | [.member name], target => some (.table (setName target.asTable name d))
  | .member name :: path, target => do
    let inner ← put? d path ((KeyMap.get? target.asTable name).getD .null)
    return .table (KeyMap.insert target.asTable name inner)
  | .item index :: path, target => do
    let i ← position? target.asList.length index
    let items := padTo i target.asList
    let inner ← put? d path (items.getD i .null)
    return .list (items.set i inner)

/-- The fields of a document, unless a path leads out of a list. What is no table has none. -/
def fields? (d : Document) : Option (KeyMap Document) :=
  (d.asTable.foldlM (fun root e => put? e.2 (Step.ofKey e.1) root) (.table [])).map asTable

end Document
end ClaimMapping.CommandLine
