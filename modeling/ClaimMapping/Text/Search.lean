namespace ClaimMapping.Text

/-- What follows `pattern` when the text begins with it. -/
def stripStart? : List Char → List Char → Option (List Char)
  | [], text => some text
  | _ :: _, [] => none
  | p :: pattern, c :: text => if p = c then stripStart? pattern text else none

def startsWith (pattern text : List Char) : Bool := (stripStart? pattern text).isSome

def endsWith (pattern text : List Char) : Bool := startsWith pattern.reverse text.reverse

/-- The text before and after the first occurrence of `pattern`. -/
def breakAt? (pattern : List Char) : List Char → Option (List Char × List Char)
  | [] => if pattern.isEmpty then some ([], []) else none
  | c :: text =>
    match stripStart? pattern (c :: text) with
    | some rest => some ([], rest)
    | none => (breakAt? pattern text).map fun (before, rest) => (c :: before, rest)

def contains (pattern text : List Char) : Bool := (breakAt? pattern text).isSome

/-- Splits at the first `sep`, which belongs to neither side. -/
def breakChar? (sep : Char) : List Char → Option (List Char × List Char)
  | [] => none
  | c :: text =>
    if c = sep then some ([], text)
    else (breakChar? sep text).map fun (before, rest) => (c :: before, rest)

/-- The parts between all occurrences of `sep`, one more than there are occurrences. -/
def splitChar (sep : Char) : List Char → List (List Char)
  | [] => [[]]
  | c :: text =>
    if c = sep then [] :: splitChar sep text
    else match splitChar sep text with
      | [] => [[c]]
      | part :: parts => (c :: part) :: parts

/-- Replaces the occurrences of `pattern`, found from left to right without overlap; `fuel` bounds
their number. -/
def replaceUpTo (pattern replacement : List Char) : Nat → List Char → List Char
  | 0, text => text
  | fuel + 1, text =>
    match breakAt? pattern text with
    | none => text
    | some (before, rest) => before ++ replacement ++ replaceUpTo pattern replacement fuel rest

/-- Replaces all occurrences. -/
def replace (pattern replacement text : List Char) : List Char :=
  if pattern.isEmpty then text else replaceUpTo pattern replacement text.length text

end ClaimMapping.Text
