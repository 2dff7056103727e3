import ClaimMapping.KeyMap
import ClaimMapping.Text.Blank
import ClaimMapping.Text.Search

namespace ClaimMapping.CommandLine

/-- What the command line asks a run for. -/
structure Options where
  payload : String
  request : Option String
  provider : Option String
  /-- Keys and expressions in the order they were given. -/
  mappings : List (String × String)
  condition : Option String
  deriving DecidableEq, Repr

/-- What a command line asks for: a run, the version, the usage, or nothing that can be done. -/
inductive Invocation where
  | run (o : Options)
  | version
  | help
  | mistake
  deriving DecidableEq, Repr

/-- Options with a value. -/
inductive Field where
  | payload
  | request
  | provider
  | mapping
  | condition
  deriving DecidableEq, Repr

/-- Options that answer at once, and options with a value. -/
inductive Switch where
  | version
  | help
  | field (f : Field)
  deriving DecidableEq, Repr

def Switch.ofName? (name : String) : Option Switch :=
  match name with
  | "version" => some .version
  | "help" => some .help
  | "payload" => some (.field .payload)
  | "request" => some (.field .request)
  | "provider" => some (.field .provider)
  | "mapping" => some (.field .mapping)
  | "condition" => some (.field .condition)
  | _ => none

def Switch.ofLetter? : Char → Option Switch
  | 'V' => some .version
  | 'h' => some .help
  | 'p' => some (.field .payload)
  | 'r' => some (.field .request)
  | 'm' => some (.field .mapping)
  | 'c' => some (.field .condition)
  | _ => none

/-- A key and an expression with an equals sign between them; blanks around either do not count. -/
def readMapping? (text : String) : Option (String × String) := do
  let (key, expression) ← Text.breakChar? '=' text.toList
  return (Text.trim (String.ofList key), Text.trim (String.ofList expression))

/-- The options given so far. -/
structure Draft where
  payload : Option String
  request : Option String
  provider : Option String
  mappings : List (String × String)
  condition : Option String

def Draft.empty : Draft := ⟨none, none, none, [], none⟩

/-- A value that may be given once. -/
def once? (current : Option String) (value : String) : Option (Option String) :=
  if current.isNone then some (some value) else none

/-- The path of a request must not be empty; only mappings may be repeated. -/
def Draft.give? (d : Draft) (f : Field) (value : String) : Option Draft :=
  match f with
  | .payload => (once? d.payload value).map fun v => { d with payload := v }
  | .request =>
    if value = "" then none else (once? d.request value).map fun v => { d with request := v }
  | .provider => (once? d.provider value).map fun v => { d with provider := v }
  | .condition => (once? d.condition value).map fun v => { d with condition := v }
  | .mapping => (readMapping? value).map fun m => { d with mappings := d.mappings ++ [m] }

/-- The payload is required. -/
def Draft.finish (d : Draft) : Invocation :=
  match d.payload with
  | some payload => .run ⟨payload, d.request, d.provider, d.mappings, d.condition⟩
  | none => .mistake

/-- An argument by its form. -/
inductive Argument where
  /-- Two minus signs: only plain arguments follow. -/
  | separator
  | long (name : String) (value : Option String)
  | short (letter : Char) (rest : List Char)
  | plain (text : String)

/-- A minus sign alone is plain. -/
def Argument.ofText (text : String) : Argument :=
  match text.toList with
  | ['-', '-'] => .separator
  | '-' :: '-' :: rest =>
    match Text.breakChar? '=' rest with
    | some (name, value) => .long (String.ofList name) (some (String.ofList value))
    | none => .long (String.ofList rest) none
  | '-' :: letter :: rest => .short letter rest
  | _ => .plain text

/-- The value that follows a letter directly; an equals sign in front of it does not count. -/
def attached? : List Char → Option String
  | [] => none
  | '=' :: rest => some (String.ofList rest)
  | rest => some (String.ofList rest)

/-- Reads options one by one. An option has a long name or a letter; its value is the next argument,
or follows an equals sign, or follows the letter directly. The first mistake counts, and what comes
after a request for the version does not. `pending` is the option that waits for its value. -/
def readArguments : List String → Option Field → Draft → Invocation
  | [], none, d => d.finish
  | [], some _, _ => .mistake
  | text :: rest, pending, d =>
    let field (f : Field) (value : Option String) : Invocation :=
      match value with
      | none => readArguments rest (some f) d
      | some v =>
        match d.give? f v with
        | some d => readArguments rest none d
        | none => .mistake
    match Argument.ofText text, pending with
    | .plain value, some f => field f (some value)
    | .separator, none => if rest.isEmpty then d.finish else .mistake
    | .long name value, none =>
      match Switch.ofName? name, value with
      | some .version, none => .version
      | some .help, none => .help
      | some (.field f), value => field f value
      | _, _ => .mistake
    | .short letter value, none =>
      match Switch.ofLetter? letter with
      | some .version => .version
      | some .help => .help
      | some (.field f) => field f (attached? value)
      | none => .mistake
    | _, _ => .mistake

def Invocation.read (arguments : List String) : Invocation := readArguments arguments none .empty

end ClaimMapping.CommandLine
