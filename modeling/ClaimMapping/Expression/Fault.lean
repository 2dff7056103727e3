import ClaimMapping.Expression.Value

namespace ClaimMapping.Expression

/-- What can go wrong while an expression is evaluated, and is reported. -/
inductive Fault where
  | argumentCount (expected actual : Nat)
  | missingTarget
  | unusableKey (v : Value)
  | noSuchKey (name : String)
  | undeclared (name : String)
  | notComparable (a b : Value)
  | unsupportedUnary (op : String) (v : Value)
  | unsupportedBinary (op : String) (a b : Value)
  | unusableMapIndex (index : Value)
  | unusableListIndex (index : Value)
  | unusableIndex (v index : Value)
  | unsupportedFields (fields : List (String × Expr))
  | notString (v : Value)
  | notTimestamp (v : Value)
  | notList (v : Value)
  | notIdentifier (e : Expr)
  /-- A fault found by a function itself. -/
  | function (name reason : String)

/-- A crash has no report: the evaluation cannot go on, as after a division by zero. -/
inductive Failure where
  | fault (f : Fault)
  | crash

abbrev Result (α : Type) := Except Failure α

def fail {α : Type} (f : Fault) : Result α := .error (.fault f)

def crash {α : Type} : Result α := .error .crash

def unexpectedType (got want : String) : String :=
  "Unexpected type: got '" ++ got ++ "', want '" ++ want ++ "'"

def Fault.message : Fault → String
  | .argumentCount expected actual =>
    "Invalid argument count: expected " ++ natString expected ++ ", got " ++ natString actual
  | .missingTarget => "Missing argument or target"
  | .unusableKey v => "Unable to use value '" ++ v.inspect ++ "' as a key"
  | .noSuchKey name => "No such key: " ++ name
  | .undeclared name => "Undeclared reference to '" ++ name ++ "'"
  | .notComparable a b => a.inspect ++ " can not be compared to " ++ b.inspect
  | .unsupportedUnary op v => "Unsupported unary operator '" ++ op ++ "': " ++ v.inspect
  | .unsupportedBinary op a b =>
    "Unsupported binary operator '" ++ op ++ "': " ++ a.inspect ++ ", " ++ b.inspect
  | .unusableMapIndex index => "Cannot use value as map index: " ++ index.inspect
  | .unusableListIndex index => "Cannot use value as list index: " ++ index.inspect
  | .unusableIndex v index => "Cannot use value " ++ v.inspect ++ " to index " ++ index.inspect
  | .unsupportedFields fields =>
    "Unsupported fields construction: " ++ tagged "Fields" [Text.bracketed (inspectFields fields)]
  | .notString v => unexpectedType v.inspect "Arc<String>"
  | .notTimestamp v => unexpectedType v.inspect "chrono::DateTime<chrono::FixedOffset>"
  | .notList v => unexpectedType v.typeName "list"
  | .notIdentifier e => unexpectedType e.inspect "identifier"
  | .function name reason => "Error executing function '" ++ name ++ "': " ++ reason

end ClaimMapping.Expression
