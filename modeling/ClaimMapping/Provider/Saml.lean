import ClaimMapping.Provider.Basic
import ClaimMapping.Xml.Event

namespace ClaimMapping.Provider

namespace Saml

def protocolNamespace : List Char := "urn:oasis:names:tc:SAML:2.0:protocol".toList

structure Assertion where
  subject : String
  attributes : KeyMap (List String)
  deriving DecidableEq, Repr

/-- An open attribute: its name and the values closed so far. -/
structure Pending where
  name : String
  values : List String
  deriving DecidableEq, Repr

/-- What has been read of a document: its root, the path of open elements, and the assertion so
far. -/
structure State where
  rootSeen : Bool
  /-- The local names of the open elements, the root first. -/
  path : List String
  /-- How many assertions have begun below a root. -/
  assertions : Nat
  /-- The text since the last start or end of an element. -/
  text : List Char
  subject : Option String
  pending : Option Pending
  attributes : KeyMap (List String)
  deriving DecidableEq, Repr

namespace State

def initial : State := ⟨false, [], 0, [], none, none, []⟩

def subjectPath : List String := ["Response", "Assertion", "Subject"]

def statementPath : List String := ["Response", "Assertion", "AttributeStatement"]

def attributePath : List String := ["Response", "Assertion", "AttributeStatement", "Attribute"]

/-- Whether the open elements lie within the first assertion. -/
def inFirst (s : State) : Bool := s.assertions == 1 && s.path[1]? == some "Assertion"

def isRoot (e : Xml.Element) (name : String) : Bool :=
  name == "Response" && e.target == some protocolNamespace

/-- The attribute that an `Attribute` element begins. -/
def begin (e : Xml.Element) : Except ParseError Pending :=
  match (Xml.attributes e.rest).value? "Name".toList with
  | .ok name => .ok ⟨String.ofList (name.getD []), []⟩
  | .error d => .error (.xml d)

/-- What the start of an element means before the element is open. -/
def enter (s : State) (e : Xml.Element) (name : String) : Except ParseError State :=
  if s.path.isEmpty then
    if isRoot e name then .ok { s with rootSeen := true } else .error (.unexpectedRoot name)
  else if s.path.length = 1 ∧ name = "Assertion" then .ok { s with assertions := s.assertions + 1 }
  else if s.inFirst ∧ s.path = statementPath ∧ name = "Attribute" then do
    let p ← begin e
    return { s with pending := some p }
  else .ok s

def start (s : State) (e : Xml.Element) : Except ParseError State := do
  let name := String.ofList (Xml.localName e.name)
  let s ← s.enter e name
  return { s with path := s.path ++ [name], text := [] }

/-- What the end of an element means once the element is closed; `text` is its last text. A later
attribute replaces an earlier one of the same name. -/
def leave (s : State) (name : String) (text : List Char) : State :=
  if name = "NameID" ∧ s.path = subjectPath then { s with subject := some (String.ofList text) }
  else if name = "AttributeValue" ∧ s.path = attributePath then
    let more := [String.ofList text]
    { s with pending := s.pending.map fun p => { p with values := p.values ++ more } }
  else if name = "Attribute" ∧ s.path = statementPath then
    match s.pending with
    | some p => { s with pending := none, attributes := KeyMap.insert s.attributes p.name p.values }
    | none => s
  else s

def finishElement (s : State) : State :=
  match s.path.getLast? with
  | none => s
  | some name =>
    let closed := { s with path := s.path.dropLast, text := [] }
    if closed.inFirst then closed.leave name s.text else closed

def step (s : State) : Xml.Event → Except ParseError State
  | .start e => s.start e
  | .text content => .ok { s with text := s.text ++ content }
  | .characterData content => .ok { s with text := s.text ++ content }
  | .close => .ok s.finishElement
  | .aside => .ok s

def finish (s : State) : Except ParseError Assertion :=
  if !s.rootSeen then .error (.missingElement "Response")
  else if !s.path.isEmpty then .error (.xml .unexpectedEnd)
  else if s.assertions = 0 then .error (.missingElement "Assertion")
  else match s.subject with
    | some subject => .ok ⟨subject, s.attributes⟩
    | none => .error (.missingElement "NameID")

end State

/-- The assertion in a sequence of events, all of which are read before a defect of the document
counts. -/
def readStream (stream : Xml.Stream) : Except ParseError Assertion := do
  let s ← stream.events.foldlM State.step State.initial
  match stream.defect with
  | some d => .error (.xml d)
  | none => s.finish

def read (payload : String) : Except ParseError Assertion := readStream (Xml.events payload.toList)

def Assertion.toJson (a : Assertion) : Json :=
  .object [
    ("attributes", .object (a.attributes.map fun e => (e.1, .array (e.2.map .string)))),
    ("subject", .string a.subject)]

def parse (payload : String) : Except ParseError Expression.Bindings :=
  (read payload).map fun a => assertion a.toJson

end Saml

/-- SAML: a payload is an XML document with a `Response` of the protocol namespace at its root,
whose first `Assertion` gives a subject and attributes. Below the root, elements are known by their
local names, whatever their namespaces. -/
def saml : Provider :=
  ⟨"saml", [.object Attribute.assertionName "wif.v1.SamlSchema"], fun payload =>
    .lift (Saml.parse payload)⟩

end ClaimMapping.Provider
