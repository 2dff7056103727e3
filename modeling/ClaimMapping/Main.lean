import ClaimMapping.CommandLine.Run

namespace ClaimMapping.CommandLine

/-- What the program may have to read for its options. -/
def wantedFiles : Invocation → List String
  | .run o => o.payload :: o.request.toList.flatMap candidates
  | _ => []

def readsInput : Invocation → Bool
  | .run o => o.payload == "-"
  | _ => false

def readFile? (path : String) : IO (Option String) := do
  try
    let text ← IO.FS.readFile path
    return some text
  catch _ => return none

def readFiles : List String → IO (KeyMap String)
  | [] => return []
  | path :: paths => do
    let files ← readFiles paths
    match ← readFile? path with
    | some text => return KeyMap.insert files path text
    | none => return files

end ClaimMapping.CommandLine

open ClaimMapping ClaimMapping.CommandLine in
def main (arguments : List String) : IO UInt32 := do
  let invocation := Invocation.read arguments
  let files ← readFiles (wantedFiles invocation)
  let stdin ← IO.getStdin
  let input ← if readsInput invocation then stdin.readToEnd else pure ""
  let provider ← IO.getEnv "WIF_PROVIDER"
  let outcome := run ⟨input, fun path => KeyMap.get? files path, provider⟩ arguments
  IO.print outcome.output
  if outcome.message ≠ "" then IO.eprintln outcome.message
  return UInt32.ofNat outcome.exit
