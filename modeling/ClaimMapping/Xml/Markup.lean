import ClaimMapping.Xml.Attribute

namespace ClaimMapping.Xml

/-- A piece of a document between angle brackets, by its content without the characters that delimit
it. -/
inductive Markup where
  | tag (content : List Char)
  | closing (content : List Char)
  | characterData (content : List Char)
  | comment (content : List Char)
  | documentType (content : List Char)
  | instruction (content : List Char)
  deriving DecidableEq, Repr

/-- The inside of a tag, up to the first `>` outside quotes. -/
def takeTag : Option Char → List Char → Option (List Char × List Char)
  | _, [] => none
  | none, '>' :: rest => some ([], rest)
  | quote, c :: rest =>
    let quote := match quote with
      | some q => if c = q then none else some q
      | none => if c = '"' ∨ c = '\'' then some c else none
    (takeTag quote rest).map fun (content, rest) => (c :: content, rest)

/-- Up to the `>` that closes as many `<` as were opened inside. -/
def takeBalanced : Nat → List Char → Option (List Char × List Char)
  | _, [] => none
  | 0, '>' :: rest => some ([], rest)
  | depth + 1, '>' :: rest =>
    (takeBalanced depth rest).map fun (content, rest) => ('>' :: content, rest)
  | depth, c :: rest =>
    (takeBalanced (if c = '<' then depth + 1 else depth) rest).map
      fun (content, rest) => (c :: content, rest)

def doctypeName : List Char := "doctype".toList

/-- A document type declaration names its root. -/
def takeDocumentType (text : List Char) : Except Defect (Markup × List Char) :=
  match takeBalanced 0 text with
  | none => .error .unclosedDocumentType
  | some (content, rest) =>
    if (content.take 7).map Decimal.foldAscii = doctypeName then
      if (content.drop 7).all isSpace then .error .missingDocumentType
      else .ok (.documentType (content.drop 7), rest)
    else .error .unknownMarkup

def takeDelimited (stop : List Char) (make : List Char → Markup) (unclosed : Defect)
    (text : List Char) : Except Defect (Markup × List Char) :=
  match Text.breakAt? stop text with
  | some (content, rest) => .ok (make content, rest)
  | none => .error unclosed

/-- One piece of markup behind its `<`. -/
def takeMarkup : List Char → Except Defect (Markup × List Char)
  | '!' :: '-' :: '-' :: rest => takeDelimited ['-', '-', '>'] .comment .unclosedComment rest
  | '!' :: '[' :: 'C' :: 'D' :: 'A' :: 'T' :: 'A' :: '[' :: rest =>
    takeDelimited [']', ']', '>'] .characterData .unclosedCharacterData rest
  | '!' :: 'D' :: rest => takeDocumentType ('D' :: rest)
  | '!' :: 'd' :: rest => takeDocumentType ('d' :: rest)
  | '!' :: _ => .error .unknownMarkup
  | '?' :: '>' :: _ => .error .unclosedInstruction
  | '?' :: rest => takeDelimited ['?', '>'] .instruction .unclosedInstruction rest
  | '/' :: rest =>
    match takeTag none rest with
    | some (content, rest) => .ok (.closing content, rest)
    | none => .error .unclosedTag
  | text =>
    match takeTag none text with
    | some (content, rest) => .ok (.tag content, rest)
    | none => .error .unclosedTag

end ClaimMapping.Xml
