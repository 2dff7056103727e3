import ClaimMapping.KeyMap

namespace ClaimMapping

/-- A number is an integer when it is written as one and fits its 64 bits, and a binary64 number
otherwise; negative zero is no integer. -/
inductive Json.Number where
  | natural (n : UInt64)
  | negative (n : Int64)
  | real (x : Float)
  deriving DecidableEq

/-- JSON values. The members of an object are a map: their order in the text is lost, and of several
members with one key the last counts. -/
inductive Json where
  | null
  | bool (b : Bool)
  | number (n : Json.Number)
  | string (s : String)
  | array (items : List Json)
  | object (members : List (String × Json))

namespace Json

instance : Inhabited Json := ⟨.null⟩

def isObject : Json → Bool
  | .object _ => true
  | _ => false

def string? : Json → Option String
  | .string s => some s
  | _ => none

def object? : Json → Option (KeyMap Json)
  | .object members => some members
  | _ => none

def array? : Json → Option (List Json)
  | .array items => some items
  | _ => none

/-- The member of an object; other values have none. -/
def member? (j : Json) (key : String) : Option Json :=
  j.object?.bind (KeyMap.get? · key)

end Json
end ClaimMapping
