import ClaimMapping.Text.Blank
import ClaimMapping.Xml.Markup
import ClaimMapping.Xml.Namespace

namespace ClaimMapping.Xml

/-- A start tag: the name with its qualifier, the namespace it belongs to, and the text behind the
name. -/
structure Element where
  name : List Char
  target : Option (List Char)
  rest : List Char
  deriving DecidableEq, Repr

inductive Event where
  | start (e : Element)
  /-- Character data without space at its ends, references replaced. -/
  | text (content : List Char)
  | characterData (content : List Char)
  /-- The end of the innermost open element. -/
  | close
  /-- A comment, a declaration or a processing instruction. -/
  | aside
  deriving DecidableEq, Repr

/-- A document as the sequence of its events. Reading stops at the first defect; the events before
it stay. -/
structure Stream where
  events : List Event
  defect : Option Defect
  deriving Repr

def Stream.append (events : List Event) (s : Stream) : Stream :=
  { s with events := events ++ s.events }

def Stream.broken (d : Defect) : Stream := ⟨[], some d⟩

/-- An open element and the bindings inside it. -/
structure Open where
  name : List Char
  scope : Scope

def innermost (opened : List Open) : Scope :=
  match opened with
  | [] => []
  | o :: _ => o.scope

/-- Splits a tag into its name and the rest. -/
def splitName (content : List Char) : List Char × List Char :=
  content.span fun c => !isSpace c

/-- A slash at the end of a tag makes the element empty. -/
def splitSlash (content : List Char) : List Char × Bool :=
  match content.reverse with
  | '/' :: rest => (rest.reverse, true)
  | _ => (content, false)

/-- Space behind the name of a closing tag does not count. -/
def closingName (content : List Char) : List Char :=
  if content.all isSpace then content else Text.trimEnd isSpace content

/-- The events of one piece of markup, and the elements open after it. -/
def Markup.events (opened : List Open) : Markup → Except Defect (List Event × List Open)
  | .tag content => do
    let (content, isEmpty) := splitSlash content
    let (name, rest) := splitName content
    let scope ← (innermost opened).enter (attributes rest)
    let start := Event.start ⟨name, scope.resolve? name, rest⟩
    return if isEmpty then ([start, .close], opened) else ([start], ⟨name, scope⟩ :: opened)
  | .closing content =>
    let name := closingName content
    match opened with
    | [] => .error (.unmatchedEnd (String.ofList name))
    | o :: opened =>
      if name = o.name then .ok ([.close], opened)
      else .error (.mismatchedEnd (String.ofList o.name) (String.ofList name))
  | .characterData content => .ok ([.characterData content], opened)
  | .comment _ => .ok ([.aside], opened)
  | .documentType _ => .ok ([.aside], opened)
  | .instruction _ => .ok ([.aside], opened)

/-- The text before the next markup gives an event unless it is only space. -/
def textEvents (text : List Char) : Except Defect (List Event) :=
  match Text.trimBy isSpace text with
  | [] => .ok []
  | c :: content => (unescape (c :: content)).map fun content => [.text content]

def eventsUpTo : Nat → List Open → List Char → Stream
  | 0, _, _ => ⟨[], none⟩
  | fuel + 1, opened, source =>
    let (before, rest) := source.span (· != '<')
    match textEvents before with
    | .error d => .broken d
    | .ok events =>
      match rest with
      | [] => ⟨events, none⟩
      | _ :: rest =>
        match takeMarkup rest with
        | .error d => Stream.append events (.broken d)
        | .ok (markup, rest) =>
          match markup.events opened with
          | .error d => Stream.append events (.broken d)
          | .ok (more, opened) => Stream.append (events ++ more) (eventsUpTo fuel opened rest)

/-- A byte order mark in front is skipped. -/
def skipMark : List Char → List Char
  | '\uFEFF' :: rest => rest
  | text => text

/-- The events of a document. Elements that are still open at the end of the text are no defect of
the sequence. -/
def events (source : List Char) : Stream :=
  let text := skipMark source
  eventsUpTo (text.length + 1) [] text

end ClaimMapping.Xml
