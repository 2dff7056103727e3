import ClaimMapping.Expression.Eval
import ClaimMapping.Expression.Reader

namespace ClaimMapping.Expression

/-- A variable that follows a schema holds an object. -/
structure Declaration where
  name : String
  schema : Option String
  deriving DecidableEq, Repr

def Declaration.dynamic (name : String) : Declaration := ⟨name, none⟩

def Declaration.object (name schema : String) : Declaration := ⟨name, some schema⟩

/-- Variable names with their values. -/
abbrev Bindings := KeyMap Json

inductive BindError where
  | undeclared (name : String)
  | notObject (name schema : String)
  deriving DecidableEq, Repr

def BindError.message : BindError → String
  | .undeclared name => "variable " ++ name ++ " is not declared in the environment"
  | .notObject name schema => "variable " ++ name ++ " must be a " ++ schema ++ " object"

/-- The variables that an expression may use, and a library. -/
structure Environment where
  declarations : List Declaration
  library : Library

namespace Environment

def declares (env : Environment) (name : String) : Bool :=
  env.declarations.any fun d => d.name == name

/-- The value of a declared variable; without a binding it is null. -/
def valueOf (bindings : Bindings) (d : Declaration) : Except BindError Value :=
  match KeyMap.get? bindings d.name, d.schema with
  | none, _ => .ok .null
  | some j, none => .ok (.ofJson j)
  | some j, some schema =>
    if j.isObject then .ok (.ofJson j) else .error (.notObject d.name schema)

/-- The variables of the declarations, those of later ones in front. -/
def bindAll (bindings : Bindings) : List Declaration → Scope → Except BindError Scope
  | [], scope => .ok scope
  | d :: ds, scope => do
    let v ← valueOf bindings d
    bindAll bindings ds ((d.name, v) :: scope)

/-- Undeclared names are refused first, the least of them, then bindings that do not follow their
schema, in the order of the declarations. -/
def scope (env : Environment) (bindings : Bindings) : Except BindError Scope :=
  match (KeyMap.keys bindings).find? fun name => !env.declares name with
  | some name => .error (.undeclared name)
  | none => bindAll bindings env.declarations []

end Environment

/-- Why an expression has no value in an environment. -/
inductive Error where
  | bind (e : BindError)
  | execute (f : Fault)

def Error.message : Error → String
  | .bind e => e.message
  | .execute f => f.message

/-- An error, or the end of the evaluation without a report. -/
inductive Stop where
  | error (e : Error)
  | crash

def Stop.ofFailure : Failure → Stop
  | .fault f => .error (.execute f)
  | .crash => .crash

def Environment.evaluate (env : Environment) (e : Expr) (bindings : Bindings) :
    Except Stop Value :=
  match env.scope bindings with
  | .error e => .error (.error (.bind e))
  | .ok scope => (eval env.library e scope).mapError .ofFailure

end ClaimMapping.Expression
