import ClaimMapping.Decimal.Numeral
import ClaimMapping.Regex.Basic
import ClaimMapping.Unicode.Scalar

namespace ClaimMapping.Regex

/-- Switches set by `(?imsUux)` up to the end of the group. -/
structure Flags where
  ignoreCase : Bool := false
  multiLine : Bool := false
  dotAll : Bool := false
  swapGreed : Bool := false
  unicode : Bool := true
  verbose : Bool := false

/-- The switch a letter stands for. The letter `R`, by which lines also end with a carriage return,
is left out and refused. -/
def Flags.set? (f : Flags) (c : Char) (on : Bool) : Option Flags :=
  match c with
  | 'i' => some { f with ignoreCase := on }
  | 'm' => some { f with multiLine := on }
  | 's' => some { f with dotAll := on }
  | 'U' => some { f with swapGreed := on }
  | 'u' => some { f with unicode := on }
  | 'x' => some { f with verbose := on }
  | _ => none

/-- What is left of the text, the number of groups opened so far, and their names. -/
structure Place where
  rest : List Char
  groups : Nat
  names : List (List Char)
  flags : Flags

def Place.at (p : Place) (rest : List Char) : Place := { p with rest := rest }

/-- In verbose mode white space and comments count for nothing. -/
def skipVerbose : List Char → List Char
  | [] => []
  | c :: rest =>
    if Text.isBlank c then skipVerbose rest
    else if c = '#' then comment rest
    else c :: rest
where
  comment : List Char → List Char
    | [] => []
    | c :: rest => if c = '\n' then skipVerbose rest else comment rest

def Flags.skip (f : Flags) (rest : List Char) : List Char :=
  if f.verbose then skipVerbose rest else rest

def isMeta (c : Char) : Bool :=
  c ∈ ['\\', '.', '+', '*', '?', '(', ')', '|', '[', ']', '\x7b', '\x7d', '^', '$', '#', '&', '-',
    '~']

/-- Letters, digits and angle brackets keep a meaning of their own behind a backslash. -/
def isEscapable (c : Char) : Bool :=
  isMeta c || (c.toNat < 128 && !Unicode.isAsciiDigit c && !('a' ≤ c && c ≤ 'z')
    && !('A' ≤ c && c ≤ 'Z') && c != '<' && c != '>')

/-- The digits of a code point: `width` of them, or any number between braces. -/
def takeHex? (width : Nat) (text : List Char) : Option (Char × List Char) :=
  match text with
  | '\x7b' :: rest =>
    match rest.span (· != '\x7d') with
    | (digits, _ :: rest) =>
      if digits.isEmpty || !digits.all Decimal.isHexDigit || digits.length > 8 then none
      else (Unicode.charOf? (Decimal.hexNumber digits)).map (·, rest)
    | _ => none
  | _ =>
    let digits := text.take width
    if digits.length < width || !digits.all Decimal.isHexDigit then none
    else (Unicode.charOf? (Decimal.hexNumber digits)).map (·, text.drop width)

/-- What a backslash and the characters after it stand for. -/
inductive Escape where
  | literal (c : Char)
  | set (s : CharSet)
  | look (l : Look)

def wordLook? (name : List Char) : Option Look :=
  match String.ofList name with
  | "start" => some .wordStart
  | "end" => some .wordEnd
  | "start-half" => some .wordStartHalf
  | "end-half" => some .wordEndHalf
  | _ => none

/-- Braces behind `\b` name a boundary; when they cannot, they are left for a repetition. -/
def takeBoundary? (rest : List Char) : Option (Escape × List Char) :=
  match rest with
  | '\x7b' :: more =>
    let (name, after) := more.span fun c => ('a' ≤ c && c ≤ 'z') || ('A' ≤ c && c ≤ 'Z') || c == '-'
    match name, after with
    | [], _ => some (.look .wordBoundary, rest)
    | _, '\x7d' :: after => (wordLook? name).map fun l => (.look l, after)
    | _, _ => none
  | _ => some (.look .wordBoundary, rest)

def asciiOf (f : Flags) (s : CharSet) : CharSet :=
  if f.unicode then s else .inter s (.range '\x00' '\x7f')

/-- What follows a backslash. The classes of characters by a property of theirs, which are written
`\p` and `\P`, are left out and refused. -/
def takeEscape? (f : Flags) : List Char → Option (Escape × List Char)
  | [] => none
  | c :: rest =>
    if isEscapable c then some (.literal c, rest)
    else match c with
      | 'a' => some (.literal '\x07', rest)
      | 'f' => some (.literal '\x0c', rest)
      | 't' => some (.literal '\t', rest)
      | 'n' => some (.literal '\n', rest)
      | 'r' => some (.literal '\r', rest)
      | 'v' => some (.literal '\x0b', rest)
      | 'x' => (takeHex? 2 rest).map fun (c, rest) => (.literal c, rest)
      | 'u' => (takeHex? 4 rest).map fun (c, rest) => (.literal c, rest)
      | 'U' => (takeHex? 8 rest).map fun (c, rest) => (.literal c, rest)
      | 'd' => some (.set (asciiOf f .digit), rest)
      | 'D' => some (.set (.complement (asciiOf f .digit)), rest)
      | 's' => some (.set (asciiOf f .blank), rest)
      | 'S' => some (.set (.complement (asciiOf f .blank)), rest)
      | 'w' => some (.set (asciiOf f .word), rest)
      | 'W' => some (.set (.complement (asciiOf f .word)), rest)
      | 'A' => some (.look .textStart, rest)
      | 'z' => some (.look .textEnd, rest)
      | 'b' => takeBoundary? rest
      | 'B' => some (.look .notWordBoundary, rest)
      | '<' => some (.look .wordStart, rest)
      | '>' => some (.look .wordEnd, rest)
      | _ => none

/-- A set named like `[:alpha:]`, negated by `[:^`. -/
def takeNamedSet? (text : List Char) : Option (CharSet × List Char) :=
  match text with
  | '[' :: ':' :: rest =>
    let (negated, rest) := match rest with
      | '^' :: rest => (true, rest)
      | rest => (false, rest)
    match rest.span (· != ':') with
    | (name, ':' :: ']' :: rest) => do
      let s ← CharSet.named? (String.ofList name)
      return (if negated then .complement s else s, rest)
    | _ => none
  | _ => none

/-- One end of a range, or a set that cannot be one. -/
def takeSetItem? (f : Flags) : List Char → Option ((Char ⊕ CharSet) × List Char)
  | [] => none
  | '\\' :: rest => do
    match ← takeEscape? f rest with
    | (.literal c, rest) => return (.inl c, rest)
    | (.set s, rest) => return (.inr s, rest)
    | (.look _, _) => none
  | c :: rest => some (.inl c, rest)

/-- A `-` is no range when it stands before the end of the set or before another `-`. -/
def startsRange (f : Flags) : List Char → Bool
  | '-' :: rest =>
    match f.skip rest with
    | ']' :: _ => false
    | '-' :: _ => false
    | _ => true
  | _ => false

def takeSetRange? (f : Flags) (text : List Char) : Option (CharSet × List Char) := do
  let (first, rest) ← takeSetItem? f text
  let rest := f.skip rest
  if startsRange f rest then
    let (second, rest) ← takeSetItem? f (f.skip (rest.drop 1))
    match first, second with
    | .inl low, .inl high => if low ≤ high then return (.range low high, rest) else none
    | _, _ => none
  else match first with
    | .inl c => return (.single c, rest)
    | .inr s => return (s, rest)

/-- The operations on two sets inside brackets. -/
inductive SetOperation where
  | inter
  | diff
  | symmetricDiff

def SetOperation.apply : SetOperation → CharSet → CharSet → CharSet
  | .inter, s, t => .inter s t
  | .diff, s, t => s.diff t
  | .symmetricDiff, s, t => .union (s.diff t) (t.diff s)

def Flags.fold (f : Flags) (s : CharSet) : CharSet := if f.ignoreCase then .folded s else s

/-- The operation so far, if there was one, applied to the items after it. -/
def Flags.combine (f : Flags) (pending : Option (CharSet × SetOperation)) (items : CharSet) :
    CharSet :=
  match pending with
  | none => items
  | some (left, op) => op.apply (f.fold left) (f.fold items)

/-- The dashes, or the one closing bracket, that stand for themselves at the start of a set. -/
def takeLeading (f : Flags) : Nat → List Char → CharSet × List Char
  | 0, text => (.none, text)
  | fuel + 1, '-' :: rest =>
    let (s, rest) := takeDashes f fuel (f.skip rest)
    (.union (.single '-') s, rest)
  | _ + 1, ']' :: rest => (.single ']', f.skip rest)
  | _, text => (.none, text)
where
  takeDashes (f : Flags) : Nat → List Char → CharSet × List Char
    | fuel + 1, '-' :: rest => takeDashes f fuel (f.skip rest)
    | _, text => (.none, text)

mutual

/-- A set from its opening bracket on. -/
def takeSet? (f : Flags) : Nat → List Char → Option (CharSet × List Char)
  | fuel + 1, '[' :: rest =>
    let rest := f.skip rest
    let (negated, rest) := match rest with
      | '^' :: rest => (true, f.skip rest)
      | rest => (false, rest)
    let (leading, rest) := takeLeading f rest.length rest
    (takeSetItems? f fuel none leading rest).map fun (s, rest) =>
      let s := f.fold s
      (if negated then .complement s else s, rest)
  | _, _ => none

/-- The items up to the closing bracket. -/
def takeSetItems? (f : Flags) :
    Nat → Option (CharSet × SetOperation) → CharSet → List Char → Option (CharSet × List Char)
  | 0, _, _, _ => none
  | fuel + 1, pending, items, text =>
    match f.skip text with
    | [] => none
    | ']' :: rest => some (f.combine pending items, rest)
    | '&' :: '&' :: rest => takeSetItems? f fuel (some (f.combine pending items, .inter)) .none rest
    | '-' :: '-' :: rest => takeSetItems? f fuel (some (f.combine pending items, .diff)) .none rest
    | '~' :: '~' :: rest =>
      takeSetItems? f fuel (some (f.combine pending items, .symmetricDiff)) .none rest
    | '[' :: rest =>
      match takeNamedSet? ('[' :: rest) with
      | some (s, rest) => takeSetItems? f fuel pending (.union items s) rest
      | none => do
        let (s, rest) ← takeSet? f fuel ('[' :: rest)
        takeSetItems? f fuel pending (.union items s) rest
    | rest => do
      let (s, rest) ← takeSetRange? f rest
      takeSetItems? f fuel pending (.union items s) rest

end

/-- The switches of a group up to `)` or `:`, each given once. -/
def takeFlags? (f : Flags) :
    (on : Bool) → (seen : List Char) → List Char → Option (Flags × Bool × List Char)
  | _, _, [] => none
  | _, '-' :: _, ')' :: _ => none
  | _, '-' :: _, ':' :: _ => none
  | _, [], ')' :: _ => none
  | _, _, ')' :: rest => some (f, true, rest)
  | _, _, ':' :: rest => some (f, false, rest)
  | on, seen, c :: rest =>
    if c ∈ seen then none
    else if c = '-' then takeFlags? f false (c :: seen) rest
    else do
      let f ← f.set? c on
      takeFlags? f on (c :: seen) rest

def isNameChar (first : Bool) (c : Char) : Bool :=
  if first then c == '_' || (Unicode.isWord c && !Unicode.isDigit c)
  else c == '_' || c == '.' || c == '[' || c == ']' || Unicode.isWord c

def takeName? (text : List Char) : Option (List Char × List Char) :=
  match text.span (· != '>') with
  | (c :: name, _ :: rest) =>
    if isNameChar true c && name.all (isNameChar false) then some (c :: name, rest) else none
  | _ => none

def takeCount? (f : Flags) (text : List Char) : Option (Nat × List Char) :=
  let (digits, rest) := Decimal.takeDigits (text.dropWhile Text.isBlank)
  if digits.isEmpty || digits.length > 9 then none
  else some (Decimal.natValue digits, f.skip (rest.dropWhile Text.isBlank))

/-- The bounds between braces, the opening brace already taken. -/
def takeBounds? (f : Flags) (text : List Char) : Option (Nat × Option Nat × List Char) := do
  let (least, rest) ← takeCount? f (f.skip text)
  match rest with
  | '\x7d' :: rest => return (least, some least, rest)
  | ',' :: rest =>
    match f.skip rest with
    | '\x7d' :: rest => return (least, none, rest)
    | rest => do
      let (most, rest) ← takeCount? f rest
      match rest with
      | '\x7d' :: rest => if least ≤ most then return (least, some most, rest) else none
      | _ => none
  | _ => none

/-- A question mark after a repetition makes it the other of greedy and lazy. -/
def takeGreed (f : Flags) (rest : List Char) : Bool × List Char :=
  match f.skip rest with
  | '?' :: rest => (f.swapGreed, rest)
  | rest => (!f.swapGreed, rest)

/-- The repetitions behind an item. -/
def takeRepeats? (f : Flags) : Nat → Regex → List Char → Option (Regex × List Char)
  | 0, _, _ => none
  | fuel + 1, item, text =>
    let again (least : Nat) (most : Option Nat) (rest : List Char) :=
      let (greedy, rest) := takeGreed f rest
      takeRepeats? f fuel (repeated least most greedy item) rest
    match f.skip text with
    | '*' :: rest => again 0 none rest
    | '+' :: rest => again 1 none rest
    | '?' :: rest => again 0 (some 1) rest
    | '\x7b' :: rest => do
      let (least, most, rest) ← takeBounds? f rest
      again least most rest
    | rest => some (item, rest)

def Flags.literal (f : Flags) (c : Char) : Regex := .set (f.fold (.single c))

def Flags.dot (f : Flags) : Regex :=
  if f.dotAll then .set .any else .set (.complement (.single '\n'))

/-- An item of one character, of a condition or of a set. -/
def takeSimple? (f : Flags) : List Char → Option (Regex × List Char)
  | [] => none
  | '\\' :: rest => do
    match ← takeEscape? f rest with
    | (.literal c, rest) => return (f.literal c, rest)
    | (.set s, rest) => return (.set s, rest)
    | (.look l, rest) => return (.look l, rest)
  | '[' :: rest => (takeSet? f (rest.length + 2) ('[' :: rest)).map fun (s, rest) => (.set s, rest)
  | '.' :: rest => some (f.dot, rest)
  | '^' :: rest => some (.look (if f.multiLine then .lineStart else .textStart), rest)
  | '$' :: rest => some (.look (if f.multiLine then .lineEnd else .textEnd), rest)
  | '*' :: _ => none
  | '+' :: _ => none
  | '?' :: _ => none
  | '\x7b' :: _ => none
  | c :: rest => some (f.literal c, rest)

/-- What opens behind a parenthesis. -/
inductive Opening where
  | switches (f : Flags)
  | plain (f : Flags)
  | capture
  | named (name : List Char)

def takeOpening? (f : Flags) (text : List Char) : Option (Opening × List Char) :=
  match f.skip text with
  | '?' :: '=' :: _ => none
  | '?' :: '!' :: _ => none
  | '?' :: '<' :: '=' :: _ => none
  | '?' :: '<' :: '!' :: _ => none
  | '?' :: 'P' :: '<' :: rest => (takeName? rest).map fun (name, rest) => (.named name, rest)
  | '?' :: '<' :: rest => (takeName? rest).map fun (name, rest) => (.named name, rest)
  | '?' :: rest => (takeFlags? f true [] rest).map fun (flags, alone, rest) =>
    (if alone then .switches flags else .plain flags, rest)
  | rest => some (.capture, rest)

mutual

/-- Alternatives up to a closing parenthesis or the end. -/
def takeAlternatives? : Nat → Place → Option (Regex × Place)
  | 0, _ => none
  | fuel + 1, p => do
    let (first, p) ← takeSequence? fuel p
    match p.rest with
    | '|' :: rest => do
      let (second, p) ← takeAlternatives? fuel (p.at rest)
      return (.alt first second, p)
    | _ => return (first, p)

/-- Items up to a bar, a closing parenthesis or the end. -/
def takeSequence? : Nat → Place → Option (Regex × Place)
  | 0, _ => none
  | fuel + 1, p =>
    match p.flags.skip p.rest with
    | [] => some (.empty, p.at [])
    | '|' :: rest => some (.empty, p.at ('|' :: rest))
    | ')' :: rest => some (.empty, p.at (')' :: rest))
    | '(' :: rest => do
      let (opening, rest) ← takeOpening? p.flags rest
      match opening with
      | .switches flags =>
        match flags.skip rest with
        | '*' :: _ => none
        | '+' :: _ => none
        | '?' :: _ => none
        | '\x7b' :: _ => none
        | rest => takeSequence? fuel { p.at rest with flags := flags }
      | .plain flags => do
        let (body, inner) ← takeGroup? fuel { p.at rest with flags := flags }
        takeRest? fuel { inner with flags := p.flags } body
      | .capture => do
        let (body, inner) ← takeGroup? fuel { p.at rest with groups := p.groups + 1 }
        takeRest? fuel { inner with flags := p.flags } (.group (p.groups + 1) body)
      | .named name =>
        if name ∈ p.names then none
        else do
          let (body, inner) ← takeGroup? fuel
            { p.at rest with groups := p.groups + 1, names := name :: p.names }
          takeRest? fuel { inner with flags := p.flags } (.group (p.groups + 1) body)
    | rest => do
      let (item, rest) ← takeSimple? p.flags rest
      takeRest? fuel (p.at rest) item

/-- The inside of a group and its closing parenthesis. -/
def takeGroup? : Nat → Place → Option (Regex × Place)
  | 0, _ => none
  | fuel + 1, p => do
    let (body, p) ← takeAlternatives? fuel p
    match p.rest with
    | ')' :: rest => return (body, p.at rest)
    | _ => none

/-- The repetitions of an item and the items after it. -/
def takeRest? : Nat → Place → Regex → Option (Regex × Place)
  | 0, _, _ => none
  | fuel + 1, p, item => do
    let (item, rest) ← takeRepeats? p.flags (p.rest.length + 1) item p.rest
    let (items, p) ← takeSequence? fuel (p.at rest)
    match items with
    | .empty => return (item, p)
    | _ => return (.seq item items, p)

end

/-- The regular expression that the whole text writes, when it is not too large: `fits` is the limit
on the size of a program. There are no back-references, and no conditions on what lies ahead or
behind beyond word and line boundaries. -/
def read? (fits : Regex → Bool) (text : List Char) : Option Regex := do
  let (r, p) ← takeAlternatives? (4 * text.length + 4) ⟨text, 0, [], {}⟩
  if p.rest.isEmpty && fits r then some r else none

/-- The limit that programs are run with. The engine bounds the bytes of the program it compiles,
which are not counted here: the bound on the weight is chosen in its place, and what is proved of
templates holds for every limit. -/
def fits (r : Regex) : Bool := r.weight ≤ 200000

end ClaimMapping.Regex
