import ClaimMapping.Xml.Attribute

namespace ClaimMapping.Xml

/-- A binding of a namespace, for the element that carries the attribute and everything inside it:
`xmlns:p` binds the qualifier `p`, and `xmlns`, without a qualifier, the default namespace. -/
structure Binding where
  qualifier : Option (List Char)
  target : List Char
  deriving DecidableEq, Repr

/-- The bindings in force, the innermost and latest first. -/
abbrev Scope := List Binding

def xmlNamespace : List Char := "http://www.w3.org/XML/1998/namespace".toList

def xmlnsNamespace : List Char := "http://www.w3.org/2000/xmlns/".toList

def xmlnsName : List Char := ['x', 'm', 'l', 'n', 's']

/-- The qualifier that an attribute binds; `xmlns:` with nothing behind it binds the default. -/
def Attribute.bound? (a : Attribute) : Option (Option (List Char)) :=
  match Text.stripStart? xmlnsName a.name with
  | some [] => some none
  | some [':'] => some none
  | some (':' :: qualifier) => some (some qualifier)
  | _ => none

/-- The qualifiers `xml` and `xmlns` and their namespaces belong together and to nothing else. -/
def Scope.declare (scope : Scope) (a : Attribute) : Except Defect Scope :=
  match a.bound? with
  | none => .ok scope
  | some none =>
    if a.name = xmlnsName then .ok (⟨none, a.value⟩ :: scope)
    else if a.value = xmlNamespace ∨ a.value = xmlnsNamespace then
      .error (.reservedNamespace (String.ofList a.value))
    else .ok (⟨none, a.value⟩ :: scope)
  | some (some qualifier) =>
    if qualifier = ['x', 'm', 'l'] then
      if a.value = xmlNamespace then .ok scope
      else .error (.reservedQualifier (String.ofList qualifier))
    else if qualifier = xmlnsName then .error (.reservedQualifier (String.ofList qualifier))
    else if a.value = xmlNamespace ∨ a.value = xmlnsNamespace then
      .error (.reservedNamespace (String.ofList a.value))
    else .ok (⟨some qualifier, a.value⟩ :: scope)

/-- The scope inside an element with these attributes. -/
def Scope.enter (scope : Scope) (l : AttributeList) : Except Defect Scope :=
  l.found.foldlM Scope.declare scope

/-- The namespace of an element name; an empty one takes a binding back. -/
def Scope.resolve? (scope : Scope) (name : List Char) : Option (List Char) :=
  let qualifier := qualifier? name
  if qualifier = some ['x', 'm', 'l'] then some xmlNamespace
  else if qualifier = some xmlnsName then some xmlnsNamespace
  else do
    let b ← scope.find? fun b => b.qualifier == qualifier
    if b.target.isEmpty then none else some b.target

end ClaimMapping.Xml
