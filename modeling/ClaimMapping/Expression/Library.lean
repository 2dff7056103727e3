import ClaimMapping.Expression.Value
import ClaimMapping.Template
import ClaimMapping.Text.Separated

namespace ClaimMapping.Expression

/-- A function of a library, by its name. Functions are narrowed to those that compute a result from
the values of their arguments alone: they neither see expressions nor keep a state. -/
structure Function where
  name : String
  /-- The error is a reason for the caller. -/
  call : List Value → Except String Value

namespace Function

def noOverload (expected : String) : String := "no matching overload, expected " ++ expected

def callExtract (args : List Value) : Except String Value :=
  match args with
  | [.string source, .string template] => .ok (.string (Template.extract source template))
  | _ => .error (noOverload "extract(string, string)")

def stringItem (v : Value) : Except String String :=
  match v with
  | .string s => .ok s
  | v => .error ("join: invalid element of type " ++ v.kind.name)

def joinItems (items : List Value) (separator : String) : Except String Value := do
  let parts ← items.mapM stringItem
  return .string (Text.join parts separator)

def callJoin (args : List Value) : Except String Value :=
  match args with
  | [.list items] => joinItems items ""
  | [.list items, .string separator] => joinItems items separator
  | _ => .error (noOverload "join(list<string>[, string])")

def splitValue (source separator : String) (limit : Int) : Value :=
  .list ((Text.split source separator limit).map .string)

def callSplit (args : List Value) : Except String Value :=
  match args with
  | [.string source, .string separator] => .ok (splitValue source separator (-1))
  | [.string source, .string separator, .int limit] => .ok (splitValue source separator limit.toInt)
  | _ => .error (noOverload "split(string, string[, int])")

def extract : Function := ⟨"extract", callExtract⟩

def join : Function := ⟨"join", callJoin⟩

def split : Function := ⟨"split", callSplit⟩

end Function

/-- Functions that an environment can be given beyond the ones it always has, by name. A call passes
the receiver, if there is one, in front of the other arguments, all of them evaluated. -/
abbrev Library := KeyMap (List Value → Except String Value)

namespace Library

def empty : Library := []

/-- A name that is taken is refused. -/
def register (l : Library) (f : Function) : Except Duplicate Library :=
  if KeyMap.contains l f.name then .error ⟨"function", f.name⟩
  else .ok (KeyMap.insert l f.name f.call)

def registerAll (l : Library) (fs : List Function) : Except Duplicate Library :=
  fs.foldlM register l

def names (l : Library) : List String := KeyMap.keys l

def standardFunctions : List Function := [.extract, .join, .split]

def standard : Library := KeyMap.ofList (standardFunctions.map fun f => (f.name, f.call))

end Library
end ClaimMapping.Expression
