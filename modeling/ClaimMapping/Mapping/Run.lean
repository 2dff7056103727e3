import ClaimMapping.Attribute.Family
import ClaimMapping.Json.Printer
import ClaimMapping.Mapping.Check
import ClaimMapping.Provider.Registry

namespace ClaimMapping.Mapping

open Expression (Bindings Environment Library)
open Journal (Note Traced)

/-- What a run draws on. -/
structure Setting where
  providers : Provider.Registry
  library : Library

def Setting.standard : Setting := ⟨.standard, .standard⟩

/-- The provider of the request, or else the first one that accepts the payload. -/
def Setting.resolve (s : Setting) (r : Request) : Traced Error (Provider × Bindings) :=
  match r.provider with
  | none => (s.providers.resolve r.payload).mapError fun _ => .noProviderFound
  | some name =>
    match s.providers.find? name with
    | none => .refuse (.unknownProvider name)
    | some p => ((p.parse r.payload).mapError (Error.parse name)).map fun bindings => (p, bindings)

def Stop.ofExpression (target : Target) : Expression.Stop → Stop
  | .error e => .error (.evaluate target e)
  | .crash => .crash

def Stop.ofReading (target : Target) : Expression.ReadFailure → Stop
  | .mistake e => .error (.compile target e)
  | .crash => .crash

def evaluateSource (env : Environment) (bindings : Bindings) (target : Target) (source : String) :
    Except Stop Expression.Value := do
  let e ← (Expression.read source).mapError (Stop.ofReading target)
  (env.evaluate e bindings).mapError (Stop.ofExpression target)

def textOf (key : String) (v : Expression.Value) : Except Error String :=
  match v with
  | .string s => .ok s
  | v => .error (.wrongType key .text (.value v.kind))

/-- The texts of the items from an index on. -/
def textsFrom (key : String) : Nat → List Expression.Value → Except Error (List String)
  | _, [] => .ok []
  | index, v :: vs =>
    match v with
    | .string s => (textsFrom key (index + 1) vs).map (s :: ·)
    | v => .error (.wrongType key .list (.item v.kind index))

def textsOf (key : String) (v : Expression.Value) : Except Error (List String) :=
  match v with
  | .list items => textsFrom key 0 items
  | v => .error (.wrongType key .list (.value v.kind))

/-- Groups are a list of texts, every other attribute is a text. -/
def attributeOf (key : String) (v : Expression.Value) : Except Error Attribute.Value :=
  if Attribute.Key.read? key = some .groups then (textsOf key v).map .list
  else (textOf key v).map .text

def evaluateEntry (env : Environment) (bindings : Bindings) (key source : String) :
    Traced Stop Attribute.Value := do
  let v ← Traced.lift (evaluateSource env bindings (.attribute key) source)
  Traced.note (.evaluated key v.kind)
  Traced.lift ((attributeOf key v).mapError .error)

/-- The attributes, one after the other. -/
def evaluateMapping (env : Environment) (bindings : Bindings) :
    List (String × String) → Traced Stop Attribute.Derived
  | [] => pure []
  | (key, source) :: mapping => do
    let value ← evaluateEntry env bindings key source
    let rest ← evaluateMapping env bindings mapping
    return (key, value) :: rest

/-- The variables of a condition, written as JSON and read again. -/
def conditionBindings (raw : Bindings) (derived : Attribute.Derived) : Except Error Bindings := do
  let nested ← (Attribute.nest (Attribute.overlay raw derived)).mapError .environment
  (Provider.Condition.read (Json.compact (.object nested))).mapError
    (.parse Provider.condition.name)

def conditionEnvironment (library : Library) : Environment :=
  ⟨Provider.Condition.declarations, library⟩

/-- Only the value true accepts; an error rejects like any other value. -/
def verdict (outcome : Except Expression.Stop Expression.Value) : Traced Stop Unit :=
  match outcome with
  | .ok (.bool true) => pure ()
  | .ok v => do
    Traced.note (.conditionValue v.kind)
    Traced.refuse (.error .conditionRejected)
  | .error (.error e) => do
    Traced.note (.conditionError e)
    Traced.refuse (.error .conditionRejected)
  | .error .crash => .refuse .crash

def checkCondition (library : Library) (condition : String) (raw : Bindings)
    (derived : Attribute.Derived) : Traced Stop Unit := do
  let bindings ← Traced.lift ((conditionBindings raw derived).mapError .error)
  let e ← Traced.lift ((Expression.read condition).mapError (Stop.ofReading .condition))
  verdict ((conditionEnvironment library).evaluate e bindings)

/-- An empty condition accepts without being asked. -/
def acceptCondition (library : Library) (condition : String) (raw : Bindings)
    (derived : Attribute.Derived) : Traced Stop Unit :=
  if condition = "" then pure ()
  else do
    checkCondition library condition raw derived
    Traced.note .conditionAccepted

/-- A run checks its request, reads the payload, evaluates the expression of every target attribute,
checks what they gave, and last asks the condition. The first failure ends it; no run gives a part
of the attributes. -/
def Setting.run (s : Setting) (r : Request) : Traced Stop Attribute.Derived := do
  let mapping ← Traced.lift (r.check.mapError .error)
  let (provider, bindings) ← (s.resolve r).mapError .error
  Traced.note (.parsedBy provider.name)
  Traced.lift ((checkSources mapping r.condition).mapError .error)
  let derived ← evaluateMapping ⟨provider.declarations, s.library⟩ bindings mapping
  Traced.note (.derived (KeyMap.keys derived))
  Traced.lift ((checkDerived derived).mapError .error)
  acceptCondition s.library r.condition bindings derived
  return derived

end ClaimMapping.Mapping
