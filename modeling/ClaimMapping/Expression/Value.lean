import ClaimMapping.Expression.Syntax
import ClaimMapping.Json.Basic
import ClaimMapping.Time.Duration
import ClaimMapping.Time.Timestamp

namespace ClaimMapping.Expression

/-- The keys of maps, in their order: signed integers, unsigned integers, truth values, strings. -/
inductive Key where
  | int (n : Int64)
  | uint (n : UInt64)
  | bool (b : Bool)
  | string (s : String)
  deriving DecidableEq, Repr

/-- The place of the kinds of keys in the order. -/
def Key.rank : Key → Nat
  | .int _ => 0
  | .uint _ => 1
  | .bool _ => 2
  | .string _ => 3

def Key.isBelow : Key → Key → Bool
  | .int a, .int b => a < b
  | .uint a, .uint b => a < b
  | .bool a, .bool b => !a && b
  | .string a, .string b => a < b
  | a, b => a.rank < b.rank

/-- The values of expressions. -/
inductive Value where
  | null
  | bool (b : Bool)
  | int (n : Int64)
  | uint (n : UInt64)
  | double (x : Float)
  | string (s : String)
  | bytes (bs : List UInt8)
  | list (items : List Value)
  | map (entries : List (Key × Value))
  | duration (d : Time.Duration)
  | timestamp (t : Time.Timestamp)
  /-- A function taken from its receiver without a call. -/
  | function (name : String) (receiver : Value)

instance : Inhabited Value := ⟨.null⟩

/-- The kinds of values that results are told apart by. -/
inductive Kind where
  | null
  | bool
  | int
  | uint
  | double
  | string
  | bytes
  | list
  | map
  | other
  deriving DecidableEq, Repr

def Kind.name : Kind → String
  | .null => "null"
  | .bool => "bool"
  | .int => "int"
  | .uint => "uint"
  | .double => "double"
  | .string => "string"
  | .bytes => "bytes"
  | .list => "list"
  | .map => "map"
  | .other => "dyn"

def Value.kind : Value → Kind
  | .null => .null
  | .bool _ => .bool
  | .int _ => .int
  | .uint _ => .uint
  | .double _ => .double
  | .string _ => .string
  | .bytes _ => .bytes
  | .list _ => .list
  | .map _ => .map
  | .duration _ | .timestamp _ | .function .. => .other

/-- The name of a type in the errors of the list functions. -/
def Value.typeName : Value → String
  | .double _ => "float"
  | .duration _ => "duration"
  | .timestamp _ => "timestamp"
  | .function .. => "function"
  | v => v.kind.name

/-- The entries of a map in increasing key order. The engine keeps them in a hash map, which
promises no order: that maps of the same entries are walked alike is an assumption of this
representation. -/
abbrev Entries := List (Key × Value)

namespace Entries

def get? : Entries → Key → Option Value
  | [], _ => none
  | (k, v) :: m, key => if key = k then some v else get? m key

def contains (m : Entries) (key : Key) : Bool := (get? m key).isSome

def insert : Entries → Key → Value → Entries
  | [], key, value => [(key, value)]
  | (k, v) :: m, key, value =>
    if key.isBelow k then (key, value) :: (k, v) :: m
    else if key = k then (key, value) :: m
    else (k, v) :: insert m key value

/-- Entries of `more` replace those of the same key. -/
def merge (m more : Entries) : Entries := more.foldl (fun acc e => insert acc e.1 e.2) m

/-- The same number as a key of the other integer type. -/
def twin? : Key → Option Key
  | .int n => if 0 ≤ n then some (.uint n.toUInt64) else none
  | .uint n => if n.toNat < 0x8000000000000000 then some (.int n.toInt64) else none
  | _ => none

/-- Integer keys also find entries of the other integer type. -/
def find? (m : Entries) (key : Key) : Option Value :=
  (get? m key).orElse fun _ => (twin? key).bind (get? m)

end Entries

def Value.ofKey : Key → Value
  | .int n => .int n
  | .uint n => .uint n
  | .bool b => .bool b
  | .string s => .string s

def Value.toKey? : Value → Option Key
  | .int n => some (.int n)
  | .uint n => some (.uint n)
  | .bool b => some (.bool b)
  | .string s => some (.string s)
  | _ => none

def Value.ofLiteral : Literal → Value
  | .null => .null
  | .bool b => .bool b
  | .int n => .int n
  | .uint n => .uint n
  | .double x => .double x
  | .string s => .string s
  | .bytes bs => .bytes bs

def Value.ofNumber : Json.Number → Value
  | .natural n => .uint n
  | .negative n => .int n
  | .real x => .double x

mutual

/-- Natural numbers become unsigned integers. -/
def Value.ofJson : Json → Value
  | .null => .null
  | .bool b => .bool b
  | .number n => .ofNumber n
  | .string s => .string s
  | .array items => .list (Value.ofJsonItems items)
  | .object members => .map (Value.ofJsonMembers members)

def Value.ofJsonItems : List Json → List Value
  | [] => []
  | j :: js => Value.ofJson j :: Value.ofJsonItems js

def Value.ofJsonMembers : List (String × Json) → Entries
  | [] => []
  | (k, j) :: members => (.string k, Value.ofJson j) :: Value.ofJsonMembers members

end

def Key.inspect : Key → String
  | .int n => tagged "Int" [intString n.toInt]
  | .uint n => tagged "Uint" [natString n.toNat]
  | .bool b => tagged "Bool" [boolString b]
  | .string s => tagged "String" [Text.quoted s]

/-- Whole seconds and the nanoseconds above them. -/
def inspectDuration (d : Time.Duration) : String :=
  "TimeDelta \x7b secs: " ++ intString (Int.fdiv d.nanos Time.secondNanos)
    ++ ", nanos: " ++ intString (Int.fmod d.nanos Time.secondNanos) ++ " \x7d"

mutual

def Value.inspect : Value → String
  | .null => "Null"
  | .bool b => tagged "Bool" [boolString b]
  | .int n => tagged "Int" [intString n.toInt]
  | .uint n => tagged "UInt" [natString n.toNat]
  | .double x => tagged "Float" [inspectFloat x]
  | .string s => tagged "String" [Text.quoted s]
  | .bytes bs => tagged "Bytes" [inspectBytes bs]
  | .list items => tagged "List" [Text.bracketed (inspectValues items)]
  | .map entries =>
    tagged "Map" ["Map \x7b map: \x7b" ++ ", ".intercalate (inspectKeyed entries) ++ "\x7d \x7d"]
  | .duration d => tagged "Duration" [inspectDuration d]
  | .timestamp t => tagged "Timestamp" [String.ofList t.text]
  | .function name receiver =>
    tagged "Function" [Text.quoted name, tagged "Some" [receiver.inspect]]

def inspectValues : List Value → List String
  | [] => []
  | v :: vs => v.inspect :: inspectValues vs

def inspectKeyed : List (Key × Value) → List String
  | [] => []
  | (k, v) :: entries => (k.inspect ++ ": " ++ v.inspect) :: inspectKeyed entries

end

end ClaimMapping.Expression
