import ClaimMapping.Regex.Match
import ClaimMapping.Text.Search

namespace ClaimMapping.Template

def isNameChar (c : Char) : Bool :=
  ('a' ≤ c && c ≤ 'z') || ('A' ≤ c && c ≤ 'Z') || ('0' ≤ c && c ≤ '9') || c == '_' || c == '-'

/-- A placeholder at the front of the text, with its braces. -/
def placeholderAt? : List Char → Option (List Char)
  | '\x7b' :: text =>
    let name := text.takeWhile isNameChar
    match name, text.dropWhile isNameChar with
    | _ :: _, '\x7d' :: _ => some ('\x7b' :: name ++ ['\x7d'])
    | _, _ => none
  | _ => none

/-- The first placeholder. -/
def placeholder? : List Char → Option (List Char)
  | [] => none
  | c :: text => (placeholderAt? (c :: text)).orElse fun _ => placeholder? text

def placeholderText? (template : String) : Option String :=
  (placeholder? template.toList).map String.ofList

/-- The group that takes the place of the placeholder. -/
def anyText : List Char := ['(', '.', '*', ')']

/-- What follows the first closing brace. -/
def ending (template : List Char) : List Char :=
  match Text.breakChar? '\x7d' template with
  | some (_, rest) => rest
  | none => []

/-- The text before `stop`, if it occurs behind the first character; otherwise all of it. -/
def cutBefore (stop text : List Char) : List Char :=
  match Text.breakAt? stop text with
  | some (c :: before, _) => c :: before
  | _ => text

section

variable (fits : Regex → Bool)

/-- What the first group takes in the first match. -/
def capture? (pattern source : List Char) : Option (List Char) := do
  let r ← Regex.read? fits pattern
  r.group? 1 source

/-- What the placeholder of the template stands for: nothing when the template has no placeholder,
is no regular expression, is one that is too large, or does not match. -/
def extractText (source template : List Char) : List Char :=
  match placeholder? template with
  | none => []
  | some name =>
    let atEnd := Text.endsWith name template
    if Text.startsWith name template && atEnd then source
    else match capture? fits (Text.replace name anyText template) source with
      | none => []
      | some found => if atEnd then found else cutBefore (ending template) found

end

/-- What a template such as `id/{name}/` extracts: the text around the placeholder is a regular
expression, and the placeholder stands for the result. `fits` is the limit on the size of a regular
expression. -/
def extract (source template : String) (fits : Regex → Bool := Regex.fits) : String :=
  String.ofList (extractText fits source.toList template.toList)

end ClaimMapping.Template
