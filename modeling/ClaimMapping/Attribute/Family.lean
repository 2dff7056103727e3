import ClaimMapping.Attribute.Value

namespace ClaimMapping.Attribute

/-- Families that are there even when they have no member. -/
def families : List String := [customFamily, reservedFamily, assertionName]

/-- The derived attributes laid over the variables of the assertion. -/
def overlay (raw : KeyMap Json) (derived : Derived) : KeyMap Json :=
  KeyMap.insertAll raw (KeyMap.mapValues Value.toJson derived)

/-- Every family, with no member yet. -/
def emptyFamilies : KeyMap Json := KeyMap.ofList (families.map fun name => (name, .object []))

/-- The family and the name in a key, split at its first point. -/
def familyOf? (key : String) : Option (String × String) := do
  let (family, name) ← Text.breakChar? '.' key.toList
  let family := String.ofList family
  if family = reservedFamily ∨ family = customFamily then some (family, String.ofList name)
  else none

/-- Adds a member to a family that holds an object. -/
def addMember (nested : KeyMap Json) (family name : String) (value : Json) : KeyMap Json :=
  match KeyMap.get? nested family with
  | some (.object members) =>
    KeyMap.insert nested family (.object (KeyMap.insert members name value))
  | _ => nested

/-- One entry of the flat map: a member of its family, or an object of its own. The error is the key
of an entry that is neither. -/
def nestEntry (nested : KeyMap Json) (key : String) (value : Json) :
    Except String (KeyMap Json) :=
  match familyOf? key with
  | some (family, name) => .ok (addMember nested family name value)
  | none => if value.isObject then .ok (KeyMap.insert nested key value) else .error key

/-- The entries one after the other, up to the first that belongs to no family. -/
def nestAll : KeyMap Json → List (String × Json) → Except String (KeyMap Json)
  | nested, [] => .ok nested
  | nested, (key, value) :: flat => do
    let nested ← nestEntry nested key value
    nestAll nested flat

/-- Reads a flat map of keys such as `google.subject` as one object for each family, with the rest
of the key as the name of a member. The error is the key of an entry that belongs to no family. -/
def nest (flat : KeyMap Json) : Except String (KeyMap Json) := nestAll emptyFamilies flat

end ClaimMapping.Attribute
