import ClaimMapping.Attribute.Key
import ClaimMapping.Json.Basic
import ClaimMapping.Text.Utf8

namespace ClaimMapping.Attribute

/-- The value of a target attribute: a text, or a list of texts. -/
inductive Value where
  | text (s : String)
  | list (items : List String)
  deriving DecidableEq, Repr

/-- The bytes of a text. -/
def byteSize (s : String) : Nat := Text.Utf8.size s.toList

namespace Value

/-- Only the items of a list count, not what stands between them. -/
def size : Value → Nat
  | .text s => byteSize s
  | .list items => items.foldr (fun s n => byteSize s + n) 0

def text? : Value → Option String
  | .text s => some s
  | .list _ => none

def toJson : Value → Json
  | .text s => .string s
  | .list items => .array (items.map .string)

/-- The shape of a value in JSON tells which of the two it is. -/
def ofJson? : Json → Option Value
  | .string s => some (.text s)
  | .array items => (items.mapM Json.string?).map .list
  | _ => none

end Value

/-- The attributes of a credential, by key. -/
abbrev Derived := KeyMap Value

namespace Derived

def size (d : Derived) : Nat := d.foldr (fun e n => e.2.size + n) 0

/-- How many attributes have a custom name. -/
def customCount (d : Derived) : Nat := (d.filter fun e => isCustomKey e.1).length

def toJson (d : Derived) : Json := .object (KeyMap.mapValues Value.toJson d)

/-- Refuses what is not an object of texts and lists of texts. -/
def ofJson? (j : Json) : Option Derived := do
  let members ← j.object?
  members.mapM fun e => (Value.ofJson? e.2).map fun v => (e.1, v)

end Derived
end ClaimMapping.Attribute
