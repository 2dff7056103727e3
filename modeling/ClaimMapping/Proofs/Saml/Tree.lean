import ClaimMapping.Provider.Saml
import ClaimMapping.Proofs.KeyMap.Lookup

namespace ClaimMapping.Provider.Saml

/-- A piece of a document. Comments, declarations and processing instructions are set aside. -/
inductive Node where
  | element (tag : Xml.Element) (children : List Node)
  | text (content : List Char)
  | characterData (content : List Char)
  | aside

abbrev Element := Xml.Element × List Node

def isElement : Node → Bool
  | .element .. => true
  | _ => false

/-- The characters that stand in a node itself. -/
def characters : Node → List Char
  | .text content => content
  | .characterData content => content
  | _ => []

/-- One root element, and no other element beside it. -/
structure Document where
  before : List Node
  tag : Xml.Element
  children : List Node
  after : List Node
  before_plain : ∀ n ∈ before, isElement n = false
  after_plain : ∀ n ∈ after, isElement n = false

mutual

def events : Node → List Xml.Event
  | .element tag children => .start tag :: (eventsOf children ++ [.close])
  | .text content => [.text content]
  | .characterData content => [.characterData content]
  | .aside => [.aside]

def eventsOf : List Node → List Xml.Event
  | [] => []
  | n :: ns => events n ++ eventsOf ns

end

/-- A document gives its events in order. -/
def Document.events (d : Document) : List Xml.Event :=
  eventsOf d.before ++ Saml.events (.element d.tag d.children) ++ eventsOf d.after

/-- Elements are known by their local names. -/
def name (tag : Xml.Element) : String := String.ofList (Xml.localName tag.name)

/-- The elements with a local name, whatever their namespaces. -/
def named (wanted : String) (ns : List Node) : List Element :=
  ns.filterMap fun
    | .element tag children => if name tag = wanted then some (tag, children) else none
    | _ => none

/-- The text and character data behind the last child element. -/
def trailing (ns : List Node) : List Char :=
  (ns.rtakeWhile fun n => !isElement n).flatMap characters

def content (ns : List Node) : String := String.ofList (trailing ns)

/-- The `NameID` children of the `Subject` children. -/
def nameIds (ns : List Node) : List Element :=
  (named "Subject" ns).flatMap fun e => named "NameID" e.2

/-- The `Attribute` children of the `AttributeStatement` children. -/
def attributesIn (ns : List Node) : List Element :=
  (named "AttributeStatement" ns).flatMap fun e => named "Attribute" e.2

/-- The contents of the `AttributeValue` children. -/
def valuesIn (ns : List Node) : List String :=
  (named "AttributeValue" ns).map fun e => content e.2

/-- What an attribute is called: the value of its `Name`, empty when there is none. -/
def IsCalled (tag : Xml.Element) (called : String) : Prop :=
  ∃ value, (Xml.attributes tag.rest).value? "Name".toList = .ok value ∧
    called = String.ofList (value.getD [])

/-- The assertion of a document. Of several attributes with one name the last counts. -/
inductive Describes (d : Document) (a : Assertion) : Prop where
  | intro (first id : Element) (others : List Element) (entries : List (String × List String))
      (is_response : name d.tag = "Response")
      (is_protocol : d.tag.target = some "urn:oasis:names:tc:SAML:2.0:protocol".toList)
      (is_first : named "Assertion" d.children = first :: others)
      (is_last : (nameIds first.2).getLast? = some id)
      (subject : a.subject = content id.2)
      (calls : List.Forall₂ (fun e entry => IsCalled e.1 entry.1 ∧ entry.2 = valuesIn e.2)
        (attributesIn first.2) entries)
      (attributes : a.attributes = KeyMap.ofList entries)

/-- The events of a forest are those of its trees in a row, at its end as well as at its front. -/
theorem eventsOf_append (ns ms : List Node) : eventsOf (ns ++ ms) = eventsOf ns ++ eventsOf ms := by
  induction ns with
  | nil => rfl
  | cons n ns ih => rw [List.cons_append, eventsOf, eventsOf, ih, List.append_assoc]

theorem eventsOf_singleton (n : Node) : eventsOf [n] = events n := by
  rw [eventsOf, eventsOf, List.append_nil]

theorem named_append (wanted : String) (ns ms : List Node) :
    named wanted (ns ++ ms) = named wanted ns ++ named wanted ms := List.filterMap_append

@[simp] theorem named_nil (wanted : String) : named wanted [] = [] := rfl

theorem named_element (wanted : String) (tag : Xml.Element) (children : List Node) :
    named wanted [.element tag children] =
      if name tag = wanted then [(tag, children)] else [] := by
  simp only [named, List.filterMap_cons, List.filterMap_nil]
  split_ifs <;> rfl

theorem named_plain (wanted : String) {n : Node} (h : isElement n = false) :
    named wanted [n] = [] := by
  cases n with
  | element => cases h
  | _ => rfl

theorem nameIds_append (ns ms : List Node) : nameIds (ns ++ ms) = nameIds ns ++ nameIds ms := by
  rw [nameIds, named_append, List.flatMap_append]
  rfl

theorem attributesIn_append (ns ms : List Node) :
    attributesIn (ns ++ ms) = attributesIn ns ++ attributesIn ms := by
  rw [attributesIn, named_append, List.flatMap_append]
  rfl

theorem valuesIn_append (ns ms : List Node) :
    valuesIn (ns ++ ms) = valuesIn ns ++ valuesIn ms := by
  rw [valuesIn, named_append, List.map_append]
  rfl

theorem trailing_concat_element (ns : List Node) (tag : Xml.Element) (children : List Node) :
    trailing (ns ++ [.element tag children]) = [] := by
  rw [trailing, List.rtakeWhile_concat_neg _ _ _ (by simp [isElement])]
  rfl

theorem trailing_concat_plain (ns : List Node) {n : Node} (h : isElement n = false) :
    trailing (ns ++ [n]) = trailing ns ++ characters n := by
  rw [trailing, List.rtakeWhile_concat_pos _ _ _ (by simp [h]), List.flatMap_append]
  simp [trailing]

end ClaimMapping.Provider.Saml
