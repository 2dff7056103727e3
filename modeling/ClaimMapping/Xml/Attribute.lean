import ClaimMapping.Xml.Reference

namespace ClaimMapping.Xml

def isSpace (c : Char) : Bool := c == ' ' || c == '\t' || c == '\n' || c == '\r'

/-- The part of a name behind its first colon, or all of it. -/
def localName (name : List Char) : List Char :=
  match Text.breakChar? ':' name with
  | some (_, rest) => rest
  | none => name

/-- The part of a name in front of its first colon. -/
def qualifier? (name : List Char) : Option (List Char) :=
  (Text.breakChar? ':' name).map Prod.fst

/-- An attribute of an element, with its value as the document writes it. -/
structure Attribute where
  name : List Char
  value : List Char
  deriving DecidableEq, Repr

/-- The attributes up to the first defect, if there is one. -/
structure AttributeList where
  found : List Attribute
  defect : Option Defect
  deriving Repr

def AttributeList.add (a : Attribute) (l : AttributeList) : AttributeList :=
  { l with found := a :: l.found }

/-- A quoted value, the space before it skipped. -/
def takeValue (text : List Char) : Except Defect (List Char × List Char) :=
  match text.dropWhile isSpace with
  | [] => .error .attributeWithoutValue
  | q :: rest =>
    if q = '"' ∨ q = '\'' then
      match Text.breakChar? q rest with
      | some found => .ok found
      | none => .error .unclosedValue
    else .error .unquotedValue

/-- One attribute from the first character of its name on. -/
def takeAttribute (c : Char) (text : List Char) : Except Defect (Attribute × List Char) :=
  let (name, rest) := text.span fun x => x != '=' && !isSpace x
  match rest.dropWhile isSpace with
  | '=' :: rest => (takeValue rest).map fun (value, rest) => (⟨c :: name, value⟩, rest)
  | _ => .error .attributeWithoutEquals

def attributesUpTo : Nat → List Char → AttributeList
  | 0, _ => ⟨[], none⟩
  | fuel + 1, text =>
    match text.dropWhile isSpace with
    | [] => ⟨[], none⟩
    | c :: rest =>
      match takeAttribute c rest with
      | .error d => ⟨[], some d⟩
      | .ok (a, rest) => (attributesUpTo fuel rest).add a

/-- The attributes in the part of a tag behind the name. -/
def attributes (text : List Char) : AttributeList := attributesUpTo (text.length + 1) text

/-- The unescaped value of the first attribute with a local name. A defect counts only when it
comes before that attribute; one that repeats an earlier name is a defect. -/
def AttributeList.value? (l : AttributeList) (wanted : List Char) :
    Except Defect (Option (List Char)) :=
  go [] l.found
where
  go (seen : List (List Char)) : List Attribute → Except Defect (Option (List Char))
    | [] => match l.defect with
      | some d => .error d
      | none => .ok none
    | a :: rest =>
      if a.name ∈ seen then .error (.repeatedAttribute (String.ofList a.name))
      else if localName a.name = wanted then (unescape a.value).map some
      else go (a.name :: seen) rest

end ClaimMapping.Xml
