import ClaimMapping.Text.Search

namespace ClaimMapping.Text

/-- At most `limit` parts; the last one holds what is left. -/
def partsUpTo (separator : List Char) : Nat → List Char → List (List Char)
  | 0, _ => []
  | 1, text => [text]
  | limit + 2, text =>
    match breakAt? separator text with
    | none => [text]
    | some (part, rest) => part :: partsUpTo separator (limit + 1) rest

/-- At most `limit` parts of one character each; the last one holds what is left. -/
def charsUpTo : Nat → List Char → List (List Char)
  | _, [] => []
  | 0, _ :: _ => []
  | 1, c :: text => [c :: text]
  | limit + 2, c :: text => [c] :: charsUpTo (limit + 1) text

/-- A negative limit allows as many parts as the text can have. -/
def partLimit (limit : Int) (text : List Char) : Nat :=
  if limit < 0 then text.length + 1 else limit.toNat

/-- Cuts a text at the separator, at most as often as the limit allows. An empty separator separates
all characters. -/
def split (source separator : String) (limit : Int) : List String :=
  let text := source.toList
  let bound := partLimit limit text
  let parts :=
    if separator.toList.isEmpty then charsUpTo bound text
    else partsUpTo separator.toList bound text
  parts.map String.ofList

def joinParts (separator : List Char) : List (List Char) → List Char
  | [] => []
  | [part] => part
  | part :: next :: parts => part ++ separator ++ joinParts separator (next :: parts)

/-- Puts the parts together again. -/
def join (parts : List String) (separator : String) : String :=
  String.ofList (joinParts separator.toList (parts.map String.toList))

end ClaimMapping.Text
