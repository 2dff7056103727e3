import ClaimMapping.Expression.Builtin
import ClaimMapping.Expression.Library

namespace ClaimMapping.Expression

/-- A function of a library sees the values of its receiver and of all its arguments. -/
def callLibrary (f : List Value → Except String Value) (c : Call) : Result Value := do
  let args ← c.arguments
  match f (c.receiver.toList ++ args) with
  | .ok v => return v
  | .error reason => c.refuse reason

/-- A library goes before the functions that are always there. -/
def function? (l : Library) (name : String) : Option (Call → Result Value) :=
  match KeyMap.get? l name with
  | some f => some (callLibrary f)
  | none => builtin? name

def function (l : Library) (name : String) : Result (Call → Result Value) :=
  match function? l name with
  | some f => .ok f
  | none => fail (.undeclared name)

def variableOf (scope : Scope) (name : String) : Result Value :=
  match scope.lookup name with
  | some v => .ok v
  | none => fail (.undeclared name)

/-- The member of a map, or else the function of that name with its receiver. -/
def memberOf (l : Library) (v : Value) (name : String) : Result Value :=
  match v.entry? name with
  | some entry => .ok entry
  | none => if (function? l name).isSome then .ok (.function name v) else fail (.noSuchKey name)

def keyOf (v : Value) : Result Key :=
  match v.toKey? with
  | some key => .ok key
  | none => fail (.unusableKey v)

mutual

/-- Operands are evaluated from left to right, and the first failure counts. A function is looked up
before its receiver is evaluated. -/
def eval (l : Library) : Expr → Scope → Result Value
  | .literal c, _ => .ok (.ofLiteral c)
  | .name x, scope => variableOf scope x
  | .list items, scope => (evalItems l items scope).map .list
  | .map entries, scope => (evalEntries l entries scope []).map .map
  | .unary op e, scope => do
    let v ← eval l e scope
    op.apply v
  | .arithmetic op a b, scope => do
    let x ← eval l a scope
    let y ← eval l b scope
    op.apply x y
  | .relation op a b, scope => do
    let x ← eval l a scope
    let y ← eval l b scope
    (op.holds x y).map .bool
  | .and a b, scope => do
    let x ← eval l a scope
    if x.isTrue then
      let y ← eval l b scope
      return .bool y.isTrue
    else return .bool false
  | .or a b, scope => do
    let x ← eval l a scope
    if x.isTrue then return x else eval l b scope
  | .conditional test yes no, scope => do
    let t ← eval l test scope
    if t.isTrue then eval l yes scope else eval l no scope
  | .member e field, scope => do
    let v ← eval l e scope
    memberOf l v field
  | .index e i, scope => do
    let v ← eval l e scope
    let index ← eval l i scope
    v.at index
  | .construct e fields, scope => do
    let _ ← eval l e scope
    fail (.unsupportedFields fields)
  | .call name args, scope => do
    let f ← function l name
    f ⟨name, none, delayAll l args, scope⟩
  | .callOn name e args, scope => do
    let f ← function l name
    let receiver ← eval l e scope
    f ⟨name, some receiver, delayAll l args, scope⟩

def evalItems (l : Library) : List Expr → Scope → Result (List Value)
  | [], _ => .ok []
  | e :: es, scope => do
    let v ← eval l e scope
    let vs ← evalItems l es scope
    return v :: vs

/-- Later entries replace earlier ones of the same key. -/
def evalEntries (l : Library) : List (Expr × Expr) → Scope → Entries → Result Entries
  | [], _, done => .ok done
  | (k, e) :: entries, scope, done => do
    let v ← eval l k scope
    let key ← keyOf v
    let value ← eval l e scope
    evalEntries l entries scope (Entries.insert done key value)

def delayAll (l : Library) : List Expr → List Delayed
  | [] => []
  | e :: es => ⟨e, fun scope => eval l e scope⟩ :: delayAll l es

end

end ClaimMapping.Expression
