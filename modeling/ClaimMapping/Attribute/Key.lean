import ClaimMapping.Text.Search

namespace ClaimMapping.Attribute

def reservedFamily : String := "google"

def customFamily : String := "attribute"

/-- The variable that holds the assertion itself. -/
def assertionName : String := "assertion"

def subjectKey : String := "google.subject"

def groupsKey : String := "google.groups"

def customKey (name : String) : String := customFamily ++ "." ++ name

/-- A target attribute: one of two reserved names, or a custom name behind the family
`attribute`. -/
inductive Key where
  | subject
  | groups
  /-- Any name, also one that is not valid. -/
  | custom (name : String)
  deriving DecidableEq, Repr

def Key.text : Key → String
  | .subject => subjectKey
  | .groups => groupsKey
  | .custom name => customKey name

/-- The key that a text names. -/
def Key.read? (text : String) : Option Key :=
  if text = subjectKey then some .subject
  else if text = groupsKey then some .groups
  else (Text.stripStart? (customKey "").toList text.toList).map fun name =>
    .custom (String.ofList name)

/-- Whether a text is in the family of custom names, valid or not. -/
def isCustomKey (text : String) : Bool :=
  match Key.read? text with
  | some (.custom _) => true
  | _ => false

def isNameChar (c : Char) : Bool := ('a' ≤ c && c ≤ 'z') || ('0' ≤ c && c ≤ '9') || c == '_'

/-- Custom names have 1 to 100 characters, all of them small letters, digits or underscores. -/
def isValidName (name : String) : Bool :=
  let text := name.toList
  !text.isEmpty && text.length ≤ 100 && text.all isNameChar

end ClaimMapping.Attribute
