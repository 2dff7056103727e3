import ClaimMapping.Decimal.Layout
import ClaimMapping.Text.Quoted

namespace ClaimMapping.Expression

inductive Literal where
  | null
  | bool (b : Bool)
  | int (n : Int64)
  | uint (n : UInt64)
  | double (x : Float)
  | string (s : String)
  | bytes (bs : List UInt8)
  deriving DecidableEq

inductive Unary where
  | not
  /-- Two exclamation marks: the truth of a value. -/
  | truth
  | minus
  /-- Two minus signs. -/
  | minusTwice
  deriving DecidableEq, Repr

inductive Arithmetic where
  | add
  | subtract
  | multiply
  | divide
  | remainder
  deriving DecidableEq, Repr

inductive Relation where
  | less
  | lessOrEqual
  | greater
  | greaterOrEqual
  | equal
  | notEqual
  | within
  deriving DecidableEq, Repr

/-- The syntax trees of expressions. -/
inductive Expr where
  | literal (l : Literal)
  | name (x : String)
  | list (items : List Expr)
  | map (entries : List (Expr × Expr))
  | unary (op : Unary) (e : Expr)
  | arithmetic (op : Arithmetic) (a b : Expr)
  | relation (op : Relation) (a b : Expr)
  | and (a b : Expr)
  | or (a b : Expr)
  | conditional (test yes no : Expr)
  | member (e : Expr) (field : String)
  | index (e i : Expr)
  /-- An object with a type in front of it. -/
  | construct (e : Expr) (fields : List (String × Expr))
  | call (function : String) (args : List Expr)
  /-- A call with a receiver. -/
  | callOn (function : String) (receiver : Expr) (args : List Expr)

instance : Inhabited Expr := ⟨.literal .null⟩

/-- Numbers from `1e-4` up to `1e16` are written positionally, whole ones with `.0`. -/
def inspectedFloat : Decimal.Layout := ⟨some (-3, 16), true, "inf", "-inf", "NaN"⟩

def inspectFloat (x : Float) : String := String.ofList (inspectedFloat.write x)

def natString (n : Nat) : String := String.ofList (Decimal.natText n)

def intString (n : Int) : String := String.ofList (Decimal.intText n)

def boolString (b : Bool) : String := if b then "true" else "false"

def inspectBytes (bs : List UInt8) : String :=
  Text.bracketed (bs.map fun b => natString b.toNat)

/-- A name with what it holds between parentheses. -/
def tagged (tag : String) (parts : List String) : String :=
  tag ++ "(" ++ ", ".intercalate parts ++ ")"

def paired (a b : String) : String := "(" ++ a ++ ", " ++ b ++ ")"

def Literal.inspect : Literal → String
  | .null => "Null"
  | .bool b => tagged "Bool" [boolString b]
  | .int n => tagged "Int" [intString n.toInt]
  | .uint n => tagged "UInt" [natString n.toNat]
  | .double x => tagged "Float" [inspectFloat x]
  | .string s => tagged "String" [Text.quoted s]
  | .bytes bs => tagged "Bytes" [inspectBytes bs]

def Unary.inspect : Unary → String
  | .not => "Not"
  | .truth => "DoubleNot"
  | .minus => "Minus"
  | .minusTwice => "DoubleMinus"

def Arithmetic.inspect : Arithmetic → String
  | .add => "Add"
  | .subtract => "Subtract"
  | .multiply => "Multiply"
  | .divide => "Divide"
  | .remainder => "Modulus"

def Relation.inspect : Relation → String
  | .less => "LessThan"
  | .lessOrEqual => "LessThanEq"
  | .greater => "GreaterThan"
  | .greaterOrEqual => "GreaterThanEq"
  | .equal => "Equals"
  | .notEqual => "NotEquals"
  | .within => "In"

def inspectName (x : String) : String := tagged "Ident" [Text.quoted x]

mutual

/-- An expression with its structure in plain view, as error messages show it. -/
def Expr.inspect : Expr → String
  | .literal l => tagged "Atom" [l.inspect]
  | .name x => inspectName x
  | .list items => tagged "List" [Text.bracketed (inspectAll items)]
  | .map entries => tagged "Map" [Text.bracketed (inspectEntries entries)]
  | .unary op e => tagged "Unary" [op.inspect, e.inspect]
  | .arithmetic op a b => tagged "Arithmetic" [a.inspect, op.inspect, b.inspect]
  | .relation op a b => tagged "Relation" [a.inspect, op.inspect, b.inspect]
  | .and a b => tagged "And" [a.inspect, b.inspect]
  | .or a b => tagged "Or" [a.inspect, b.inspect]
  | .conditional test yes no => tagged "Ternary" [test.inspect, yes.inspect, no.inspect]
  | .member e field => tagged "Member" [e.inspect, tagged "Attribute" [Text.quoted field]]
  | .index e i => tagged "Member" [e.inspect, tagged "Index" [i.inspect]]
  | .construct e fields =>
    tagged "Member" [e.inspect, tagged "Fields" [Text.bracketed (inspectFields fields)]]
  | .call f args => tagged "FunctionCall" [inspectName f, "None", Text.bracketed (inspectAll args)]
  | .callOn f e args =>
    tagged "FunctionCall"
      [inspectName f, tagged "Some" [e.inspect], Text.bracketed (inspectAll args)]

def inspectAll : List Expr → List String
  | [] => []
  | e :: es => e.inspect :: inspectAll es

def inspectEntries : List (Expr × Expr) → List String
  | [] => []
  | (k, v) :: entries => paired k.inspect v.inspect :: inspectEntries entries

def inspectFields : List (String × Expr) → List String
  | [] => []
  | (x, e) :: fields => paired (Text.quoted x) e.inspect :: inspectFields fields

end

end ClaimMapping.Expression
