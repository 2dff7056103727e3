import ClaimMapping.CommandLine.Yaml.Block
import ClaimMapping.CommandLine.Yaml.Plain
import ClaimMapping.CommandLine.Yaml.Property
import ClaimMapping.CommandLine.Yaml.Quoted

namespace ClaimMapping.CommandLine.Yaml

/-- Something that is a key if a colon follows on its line, not too far away. -/
structure Candidate where
  /-- The tokens in front of it. -/
  position : Nat
  place : Place
  /-- Whether it must be a key. -/
  required : Bool
  deriving DecidableEq, Repr

/-- The longest key, in characters. -/
def keyReach : Nat := 1024

/-- The deepest nesting of flow collections. -/
def flowLimit : Nat := 255

def Candidate.isStale (k : Candidate) (p : Place) : Bool :=
  k.place.line < p.line || k.place.index + keyReach < p.index

/-- Drops a candidate that fails a test, unless it must be a key. -/
def keep? (ok : Candidate → Bool) : Option Candidate → Option (Option Candidate)
  | none => some none
  | some k => if ok k then some (some k) else if k.required then none else some none

/-- The tokens of a text so far. Whether a scalar is a key shows only at the colon behind it, so the
place of everything that may be a key is remembered, and its token is put in later. -/
structure Layout where
  cursor : Cursor
  tokens : Array Token
  /-- The columns of the open blocks, the innermost first. -/
  indents : List Nat
  keyAllowed : Bool
  candidate : Option Candidate
  /-- The candidates of the flow collections around the innermost one, and of the block. -/
  outer : List (Option Candidate)
  /-- The index behind the last quoted scalar: a colon there needs no blank behind it. -/
  adjacent : Nat

namespace Layout

def start (text : List Char) : Layout := ⟨.start text, #[], [], true, none, [], 0⟩

def inFlow (l : Layout) : Bool := !l.outer.isEmpty

def column (l : Layout) : Nat := l.cursor.column

def push (t : Token) (l : Layout) : Layout := { l with tokens := l.tokens.push t }

def pushAt (position : Nat) (t : Token) (l : Layout) : Layout :=
  { l with tokens := (l.tokens.extract 0 position).push t ++ l.tokens.extract position }

def skip (n : Nat) (l : Layout) : Layout := { l with cursor := l.cursor.advance n }

def allowKey (allowed : Bool) (l : Layout) : Layout := { l with keyAllowed := allowed }

/-- Closes the blocks whose column fails a test. -/
def closeWhile (p : Nat → Bool) : List Nat → Array Token → List Nat × Array Token
  | [], tokens => ([], tokens)
  | i :: indents, tokens =>
    if p i then closeWhile p indents (tokens.push .blockEnd) else (i :: indents, tokens)

/-- Closes the blocks that are indented further than the next token. -/
def closeDeeper (l : Layout) : Layout :=
  if l.inFlow then l
  else
    let (indents, tokens) := closeWhile (l.column < ·) l.indents l.tokens
    { l with indents := indents, tokens := tokens }

def closeAll (l : Layout) : Layout :=
  if l.inFlow then l
  else
    let (indents, tokens) := closeWhile (fun _ => true) l.indents l.tokens
    { l with indents := indents, tokens := tokens }

/-- Opens a block at a column that is indented further than the block around it. -/
def openBlock (column position : Nat) (t : Token) (l : Layout) : Layout :=
  let isDeeper := match l.indents with
    | [] => true
    | i :: _ => decide (i < column)
  if !l.inFlow && isDeeper then { l.pushAt position t with indents := column :: l.indents } else l

def openBlockHere (t : Token) (l : Layout) : Layout := l.openBlock l.column l.tokens.size t

/-- Forgets the candidate. -/
def dropCandidate? (l : Layout) : Option Layout :=
  (keep? (fun _ => false) l.candidate).map fun k => { l with candidate := k }

def dropStale? (l : Layout) : Option Layout := do
  let fresh (k : Candidate) : Bool := !k.isStale l.cursor.place
  let candidate ← keep? fresh l.candidate
  let outer ← l.outer.mapM (keep? fresh)
  return { l with candidate := candidate, outer := outer }

/-- In a flow collection, what stands at the column of the block must be a key. -/
def here (l : Layout) : Candidate :=
  ⟨l.tokens.size, l.cursor.place, l.inFlow && l.indents.head? == some l.column⟩

/-- What comes next may be a key, where keys are allowed. -/
def noteCandidate? (l : Layout) : Option Layout :=
  if l.keyAllowed then
    l.dropCandidate?.map fun l => { l with candidate := some l.here }
  else some l

/-- Skips white space and comments. A line break in a block allows a key again, and tabs are blanks
only where no key is allowed. -/
def skipIdle (inFlow : Bool) : Nat → Bool → Cursor → Bool × Cursor
  | 0, allowed, c => (allowed, c)
  | fuel + 1, allowed, c =>
    match c.rest with
    | [] => (allowed, c)
    | x :: _ =>
      if x == ' ' || (x == '\t' && (inFlow || !allowed)) then
        skipIdle inFlow fuel allowed (c.advance 1)
      else if x == '#' then skipIdle inFlow fuel allowed (c.skipWhile fun y => !isBreak y)
      else if isBreak x then skipIdle inFlow fuel (allowed || !inFlow) c.skipBreak
      else (allowed, c)

def toNext (l : Layout) : Layout :=
  let (allowed, c) := skipIdle l.inFlow (l.cursor.rest.length + 1) l.keyAllowed l.cursor
  { l with keyAllowed := allowed, cursor := c }

def documentMark? (t : Token) (l : Layout) : Option Layout :=
  l.closeAll.dropCandidate?.map fun l => ((l.allowKey false).skip 3).push t

def directive? (l : Layout) : Option Layout := do
  let l ← l.closeAll.dropCandidate?
  let c ← takeDirective? l.cursor
  return { l with keyAllowed := false, cursor := c }.push .directive

def enterFlow (l : Layout) : Layout :=
  { l with keyAllowed := true, candidate := none, outer := l.candidate :: l.outer }

def openFlow? (t : Token) (l : Layout) : Option Layout := do
  let l ← l.noteCandidate?
  if flowLimit ≤ l.outer.length then none
  else some ((l.enterFlow.skip 1).push t)

def leaveFlow (l : Layout) : Layout :=
  match l.outer with
  | [] => l
  | k :: outer => { l with candidate := k, outer := outer }

def closeFlow? (t : Token) (l : Layout) : Option Layout :=
  l.dropCandidate?.map fun l => ((l.leaveFlow.allowKey false).skip 1).push t

def flowEntry? (l : Layout) : Option Layout :=
  l.dropCandidate?.map fun l => ((l.allowKey true).skip 1).push .flowEntry

def blockEntry? (l : Layout) : Option Layout :=
  if l.inFlow || !l.keyAllowed then none
  else (l.openBlockHere .blockSequence).dropCandidate?.map fun l =>
    ((l.allowKey true).skip 1).push .blockEntry

def key? (l : Layout) : Option Layout :=
  if !l.inFlow && !l.keyAllowed then none
  else (l.openBlockHere .blockMapping).dropCandidate?.map fun l =>
    ((l.allowKey !l.inFlow).skip 1).push .key

/-- A colon makes the candidate a key; without a candidate the key is empty or was marked. -/
def value? (l : Layout) : Option Layout :=
  match l.candidate with
  | some k =>
    let l := (l.pushAt k.position .key).openBlock k.place.column k.position .blockMapping
    some (({ l with keyAllowed := false, candidate := none }.skip 1).push .value)
  | none =>
    if !l.inFlow && !l.keyAllowed then none
    else some ((((l.openBlockHere .blockMapping).allowKey !l.inFlow).skip 1).push .value)

/-- A token that may be a key or belong to one, read from the cursor. -/
def property? (take : Cursor → Option (Token × Cursor)) (l : Layout) : Option Layout := do
  let l ← l.noteCandidate?
  let (t, c) ← take l.cursor
  return { l with keyAllowed := false, cursor := c }.push t

def textToken (found : List Char × Cursor) : Token × Cursor :=
  (.scalar false (String.ofList found.1), found.2)

def quoted? (l : Layout) : Option Layout := do
  let l ← l.property? fun c => (takeQuoted? c).map textToken
  return { l with adjacent := l.cursor.place.index }

def block? (folded : Bool) (l : Layout) : Option Layout := do
  let l ← l.property? fun c => (takeBlock? folded l.indents.head? c).map textToken
  return l.allowKey true

def plain? (l : Layout) : Option Layout := do
  let l ← l.noteCandidate?
  let indent := match l.indents with
    | [] => 0
    | i :: _ => i + 1
  let p ← takePlain? l.inFlow indent l.cursor
  let t := Token.scalar true (String.ofList p.text)
  return { l with keyAllowed := p.broken, cursor := p.behind }.push t

/-- Whether the colon in front of `rest` stands for itself. -/
def isValueSign (l : Layout) (rest : List Char) : Bool :=
  endsKey l.inFlow rest || (l.inFlow && l.cursor.place.index == l.adjacent)

/-- The token that begins with the character `x`. -/
def token? (x : Char) (rest : List Char) (l : Layout) : Option Layout :=
  if x = '%' ∧ l.column = 0 then l.directive?
  else if l.cursor.isMark '-' then l.documentMark? .documentStart
  else if l.cursor.isMark '.' then l.documentMark? .documentEnd
  else
    match x with
    | '[' => l.openFlow? .flowSequence
    | '\x7b' => l.openFlow? .flowMapping
    | ']' => l.closeFlow? .flowSequenceEnd
    | '\x7d' => l.closeFlow? .flowMappingEnd
    | ',' => l.flowEntry?
    | '*' => l.property? fun c => (takeAnchor? c).map fun (name, c) => (.reference name, c)
    | '&' => l.property? fun c => (takeAnchor? c).map fun (name, c) => (.anchor name, c)
    | '!' => l.property? fun c => (takeTag? c).map fun (t, c) => (.tag t, c)
    | '\'' => l.quoted?
    | '"' => l.quoted?
    | '%' => none
    | '@' => none
    | '\x60' => none
    | '-' => if endsWord rest then l.blockEntry? else l.plain?
    | '?' => if endsWord rest then l.key? else l.plain?
    | ':' => if l.isValueSign rest then l.value? else l.plain?
    | '|' => if l.inFlow then l.plain? else l.block? false
    | '>' => if l.inFlow then l.plain? else l.block? true
    | _ => l.plain?

/-- Closes what is open at the end of the text. -/
def finish? (l : Layout) : Option (List Token) :=
  l.closeAll.dropCandidate?.map fun l => l.tokens.toList

def run? : Nat → Layout → Option (List Token)
  | 0, _ => none
  | fuel + 1, l => do
    let l ← l.toNext.dropStale?
    let l := l.closeDeeper
    match l.cursor.rest with
    | [] => l.finish?
    | x :: rest => (l.token? x rest).bind (run? fuel)

end Layout

/-- All tokens of a text. -/
def tokens? (text : List Char) : Option (List Token) := (Layout.start text).run? (text.length + 1)

end ClaimMapping.CommandLine.Yaml
