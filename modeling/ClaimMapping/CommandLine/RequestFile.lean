import ClaimMapping.CommandLine.Options
import ClaimMapping.CommandLine.Path
import ClaimMapping.CommandLine.Toml.Table
import ClaimMapping.CommandLine.Yaml.Value
import ClaimMapping.Json.Reader
import ClaimMapping.Mapping.Request

namespace ClaimMapping.CommandLine

/-- What can keep a run of the command line from a request. -/
inductive Failure where
  | payload (path : String)
  | request (path : String)
  /-- A request file that is read, but asks for something out of reach. -/
  | crash
  deriving DecidableEq, Repr

/-- Everything of a request except the payload. All fields may be missing, and the options of the
command line override them. -/
structure RequestFile where
  provider : Option String
  mapping : KeyMap String
  condition : String
  deriving DecidableEq, Repr

/-- The formats of request files that are read. -/
inductive Format where
  | json
  | toml
  | yaml
  deriving DecidableEq, Repr

namespace Format

/-- The format of a file, by the extension of its name. The other formats that a file reader may
know are left out, and files of theirs refused. -/
def ofExtension? (extension : String) : Option Format :=
  match extension with
  | "json" => some .json
  | "toml" => some .toml
  | "yaml" => some .yaml
  | "yml" => some .yaml
  | _ => none

def extensions : List String := ["toml", "json", "yaml", "yml"]

def read? : Format → String → Option Document
  | .json, text => (Json.read? text).map .ofJson
  | .toml, text => Toml.read? text
  | .yaml, text => Yaml.read? text

end Format

/-- The part of a file name behind its last point; a name has none when its only point is in
front. -/
def extension? (path : String) : Option String :=
  match (Text.splitChar '/' path.toList).getLast? with
  | none => none
  | some name =>
    match (Text.splitChar '.' name).reverse with
    | [] => none
    | [_] => none
    | [_, []] => none
    | extension :: _ => some (String.ofList extension)

/-- The files of a path: the one of this very name, or else one with an extension added. -/
def candidates (path : String) : List String :=
  path :: Format.extensions.map fun extension => path ++ "." ++ extension

namespace RequestFile

def empty : RequestFile := ⟨none, [], ""⟩

/-- A table of scalars. -/
def mappingOf? (d : Document) : Option (KeyMap String) := do
  let entries ← d.entries?
  entries.mapM fun e => e.2.scalarText?.map fun s => (e.1, s)

/-- Each field of its own type; a provider that is null counts as missing. -/
def ofFields? (fields : KeyMap Document) : Option RequestFile := do
  let provider ← match KeyMap.get? fields "provider" with
    | none => some none
    | some .null => some none
    | some d => d.scalarText?.map some
  let mapping ← match KeyMap.get? fields "attribute_mapping" with
    | none => some []
    | some d => mappingOf? d
  let condition ← match KeyMap.get? fields "attribute_condition" with
    | none => some ""
    | some d => d.scalarText?
  return ⟨provider, mapping, condition⟩

/-- The text of the first file that there is, with the format that its name tells. -/
def open? (file? : String → Option String) (path : String) : Option (Format × String) := do
  let (name, text) ← (candidates path).findSome? fun name => (file? name).map (name, ·)
  let extension ← extension? name
  let format ← Format.ofExtension? extension
  return (format, text)

/-- The request file of a path. It fails when the file is missing or malformed, and crashes when a
path in it leads out of a list. -/
def load (file? : String → Option String) (path : String) : Except Failure RequestFile :=
  let document := do
    let (format, text) ← open? file? path
    format.read? text
  match document with
  | none => .error (.request path)
  | some d =>
    match d.fields? with
    | none => .error .crash
    | some fields =>
      match ofFields? fields with
      | none => .error (.request path)
      | some file => .ok file

/-- The request of the options, laid over the one of the file. `ambient` is the provider that the
surroundings name. -/
def combine (file : RequestFile) (o : Options) (ambient : Option String) (payload : String) :
    Mapping.Request where
  payload := payload
  mapping := some (KeyMap.insertAll file.mapping o.mappings)
  condition := o.condition.getD file.condition
  provider := (o.provider.orElse fun _ => ambient).orElse fun _ => file.provider

end RequestFile
end ClaimMapping.CommandLine
