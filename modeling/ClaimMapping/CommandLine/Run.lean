import ClaimMapping.CommandLine.RequestFile
import ClaimMapping.Mapping.Run

namespace ClaimMapping.CommandLine

/-- What a run can read. -/
structure Surroundings where
  input : String
  file? : String → Option String
  /-- The provider that the environment variable names. -/
  provider : Option String

/-- What a run of the command line leaves behind: its exit code and what it wrote. -/
structure Outcome where
  exit : Nat
  output : String
  /-- One message without a line end, or nothing. -/
  message : String
  deriving DecidableEq, Repr

/-- A crash says nothing. -/
def Failure.outcome : Failure → Outcome
  | .payload path => ⟨1, "", "Error: failed to read payload " ++ path⟩
  | .request path => ⟨1, "", "Error: failed to load request file " ++ path⟩
  | .crash => ⟨101, "", ""⟩

def versionText : String := "wif-cli 0.1.0\n"

def usage : String :=
  "usage: wif-cli --payload <PAYLOAD> [--request <REQUEST>] [--provider <PROVIDER>] "
    ++ "[--mapping <KEY=EXPRESSION>]... [--condition <CONDITION>]"

def errorText (e : Mapping.Error) : String :=
  let cause := match e.cause? with
    | some source => ": " ++ source.message
    | none => ""
  "error[" ++ e.kind ++ "]: " ++ e.message ++ cause

/-- A minus sign stands for the standard input. -/
def Surroundings.payload? (s : Surroundings) (path : String) : Option String :=
  if path = "-" then some s.input else s.file? path

/-- The request of the options. The payload is read before the request file. -/
def Surroundings.request (s : Surroundings) (o : Options) : Except Failure Mapping.Request :=
  match s.payload? o.payload with
  | none => .error (.payload o.payload)
  | some payload =>
    match o.request with
    | none => .ok (RequestFile.empty.combine o s.provider payload)
    | some path =>
      (RequestFile.load s.file? path).map fun file => file.combine o s.provider payload

/-- The attributes go to the output as JSON; every failure gives one message and leaves the output
empty. -/
def Outcome.ofRun : Except Mapping.Stop Attribute.Derived → Outcome
  | .ok d => ⟨0, Json.indented d.toJson ++ "\n", ""⟩
  | .error (.error e) => ⟨1, "", errorText e⟩
  | .error .crash => ⟨101, "", ""⟩

def execute (s : Surroundings) (o : Options) : Outcome :=
  match s.request o with
  | .error f => f.outcome
  | .ok request => .ofRun (Mapping.Setting.standard.run request).outcome

def run (s : Surroundings) (arguments : List String) : Outcome :=
  match Invocation.read arguments with
  | .version => ⟨0, versionText, ""⟩
  | .help => ⟨0, usage ++ "\n", ""⟩
  | .mistake => ⟨2, "", usage⟩
  | .run o => execute s o

end ClaimMapping.CommandLine
