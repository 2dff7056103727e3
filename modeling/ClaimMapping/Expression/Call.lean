import ClaimMapping.Expression.Fault

namespace ClaimMapping.Expression

/-- The variables in force, the innermost first. -/
abbrev Scope := List (String × Value)

/-- An argument with its evaluation. -/
structure Delayed where
  expr : Expr
  run : Scope → Result Value

/-- A call of a function. Its arguments are evaluated only when the function asks for them, and a
list function evaluates its body once for each element, in a scope of its own. -/
structure Call where
  function : String
  receiver : Option Value
  args : List Delayed
  scope : Scope

namespace Call

def refuse {α : Type} (c : Call) (reason : String) : Result α := fail (.function c.function reason)

def argument (c : Call) (i : Nat) : Result Value :=
  match c.args[i]? with
  | some a => a.run c.scope
  | none => fail (.argumentCount (i + 1) c.args.length)

/-- The value of an argument that takes the place of the receiver; all its faults are one. -/
def standIn (c : Call) : Result Value :=
  match c.args.head? with
  | none => fail .missingTarget
  | some a =>
    match a.run c.scope with
    | .error (.fault _) => fail .missingTarget
    | outcome => outcome

/-- The receiver, or else the first argument, and the number of the argument behind it. -/
def target (c : Call) : Result (Value × Nat) :=
  match c.receiver with
  | some v => .ok (v, 0)
  | none => (c.standIn).map fun v => (v, 1)

/-- All arguments in order. -/
def arguments (c : Call) : Result (List Value) := c.args.mapM fun a => a.run c.scope

def asString (v : Value) : Result String :=
  match v with
  | .string s => .ok s
  | v => fail (.notString v)

def stringTarget (c : Call) : Result (String × Nat) := do
  let (v, next) ← c.target
  let s ← asString v
  return (s, next)

def stringArgument (c : Call) (i : Nat) : Result String := do
  let v ← c.argument i
  asString v

/-- The loop variable and the body of a list function. Without them the evaluation ends. -/
def loop (c : Call) (i : Nat) : Result (String × Delayed) :=
  match c.args[i]? with
  | none => crash
  | some a =>
    match a.expr with
    | .name x =>
      match c.args[i + 1]? with
      | none => crash
      | some body => .ok (x, body)
    | e => fail (.notIdentifier e)

end Call

/-- The value of a body for one element. -/
def Delayed.forElement (body : Delayed) (scope : Scope) (x : String) (element : Value) :
    Result Value :=
  body.run ((x, element) :: scope)

end ClaimMapping.Expression
