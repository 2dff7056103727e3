import ClaimMapping.Expression.Escape
import ClaimMapping.Expression.Syntax
import ClaimMapping.Text.Blank
import ClaimMapping.Text.Search

namespace ClaimMapping.Expression

inductive Symbol where
  | not | notNot | minus | minusMinus | plus | star | slash | percent
  | less | lessEqual | greater | greaterEqual | equalEqual | notEqual | within
  | andAnd | orOr | question | colon | dot | comma
  | openParen | closeParen | openBracket | closeBracket | openBrace | closeBrace
  deriving DecidableEq, Repr

/-- The tokens of expressions. A literal may denote no value, as a number that is out of range. -/
inductive Token where
  | literal (l : Option Literal)
  | identifier (name : String)
  | symbol (s : Symbol)
  deriving DecidableEq

/-- A token with the text it was read from. -/
abbrev Piece := List Char × Token

def intLiteral (negative : Bool) (n : Nat) : Option Literal :=
  let value : Int := if negative then -n else n
  if -0x8000000000000000 ≤ value ∧ value < 0x8000000000000000 then
    some (.int (Int64.ofInt value))
  else none

/-- No sign is allowed, not even before zero. -/
def uintLiteral (negative : Bool) (n : Nat) : Option Literal :=
  if !negative && n < 0x10000000000000000 then some (.uint (UInt64.ofNat n)) else none

def takeMinus : List Char → List Char × List Char
  | '-' :: rest => (['-'], rest)
  | rest => ([], rest)

/-- Digits with an optional minus sign, or without one and an `u` behind them. -/
def decimalPiece? (text : List Char) : Option Piece :=
  let (sign, rest) := takeMinus text
  let (ds, rest) := Decimal.takeDigits rest
  if ds.isEmpty then none
  else
    let n := Decimal.natValue ds
    match sign, rest with
    | [], 'u' :: _ => some (ds ++ ['u'], .literal (uintLiteral false n))
    | [], 'U' :: _ => some (ds ++ ['U'], .literal (uintLiteral false n))
    | _, _ => some (sign ++ ds, .literal (intLiteral (!sign.isEmpty) n))

def hexPiece? (text : List Char) : Option Piece :=
  let (sign, rest) := takeMinus text
  match rest with
  | '0' :: x :: rest =>
    let ds := rest.takeWhile Decimal.isHexDigit
    if (x = 'x' ∨ x = 'X') ∧ !ds.isEmpty then
      let n := Decimal.hexNumber ds
      let taken := sign ++ '0' :: x :: ds
      match rest.dropWhile Decimal.isHexDigit with
      | 'u' :: _ => some (taken ++ ['u'], .literal (uintLiteral (!sign.isEmpty) n))
      | 'U' :: _ => some (taken ++ ['U'], .literal (uintLiteral (!sign.isEmpty) n))
      | _ => some (taken, .literal (intLiteral (!sign.isEmpty) n))
    else none
  | _ => none

/-- An exponent mark, an optional sign and digits, if all of it is there. -/
def takeExponent : List Char → List Char
  | e :: rest =>
    let (sign, digits) := match rest with
      | '-' :: more => (['-'], more)
      | '+' :: more => (['+'], more)
      | more => ([], more)
    let ds := (Decimal.takeDigits digits).1
    if (e = 'e' ∨ e = 'E') ∧ !ds.isEmpty then e :: sign ++ ds else []
  | [] => []

/-- Digits behind a point, or an exponent, or both. -/
def doublePiece? (text : List Char) : Option Piece :=
  let (sign, rest) := match text with
    | '-' :: rest => (['-'], rest)
    | '+' :: rest => (['+'], rest)
    | rest => ([], rest)
  let (whole, rest) := Decimal.takeDigits rest
  let fraction := match rest with
    | '.' :: more =>
      let ds := (Decimal.takeDigits more).1
      if ds.isEmpty then [] else '.' :: ds
    | _ => []
  let exponent := takeExponent (rest.drop fraction.length)
  if fraction.isEmpty && (whole.isEmpty || exponent.isEmpty) then none
  else
    let taken := sign ++ whole ++ fraction ++ exponent
    some (taken, .literal ((Decimal.readFloat? taken).map .double))

def isQuote (c : Char) : Bool := c == '"' || c == '\''

/-- The text up to the closing quote. A backslash takes the next character with it, which must not
end the line. -/
def takeQuoted? (quote : Char) : List Char → Option (List Char)
  | [] => none
  | ['\\'] => none
  | '\\' :: c :: rest => if c = '\n' then none else (takeQuoted? quote rest).map ('\\' :: c :: ·)
  | c :: rest => if c = quote then some [] else (takeQuoted? quote rest).map (c :: ·)

/-- The text up to the last quote that can close a byte literal: all those before it on the line
follow a backslash. -/
def takeLine? (quote : Char) (escaped : Bool) : List Char → Option (List Char)
  | [] => none
  | c :: rest =>
    if c = '\n' then none
    else if c = quote then
      if escaped then some (((takeLine? quote false rest).map (c :: ·)).getD []) else some []
    else (takeLine? quote (c == '\\') rest).map (c :: ·)

def stringPiece? : List Char → Option Piece
  | quote :: rest =>
    if isQuote quote then
      (takeQuoted? quote rest).map fun content =>
        (quote :: content ++ [quote],
          .literal ((quotedContent? quote content.length content).map fun s =>
            .string (String.ofList s)))
    else none
  | [] => none

def rawPiece? : List Char → Option Piece
  | r :: quote :: rest =>
    if (r = 'r' ∨ r = 'R') ∧ isQuote quote then
      (takeQuoted? quote rest).map fun content =>
        (r :: quote :: content ++ [quote],
          .literal (some (.string (String.ofList (rawContent quote content)))))
    else none
  | _ => none

def bytesPiece? : List Char → Option Piece
  | b :: quote :: rest =>
    if (b = 'b' ∨ b = 'B') ∧ isQuote quote then
      (takeLine? quote false rest).map fun content =>
        (b :: quote :: content ++ [quote],
          .literal ((bytesContent? content.length content).map .bytes))
    else none
  | _ => none

def startsWord (c : Char) : Bool := ('a' ≤ c && c ≤ 'z') || ('A' ≤ c && c ≤ 'Z') || c == '_'

def word (name : String) : Token :=
  match name with
  | "true" => .literal (some (.bool true))
  | "false" => .literal (some (.bool false))
  | "null" => .literal (some .null)
  | "in" => .symbol .within
  | _ => .identifier name

def wordPiece? : List Char → Option Piece
  | c :: rest =>
    if startsWord c then
      let taken := c :: rest.takeWhile fun c => startsWord c || Decimal.isDigit c
      some (taken, word (String.ofList taken))
    else none
  | [] => none

def doubleSymbol? : Char → Char → Option Symbol
  | '!', '!' => some .notNot
  | '-', '-' => some .minusMinus
  | '<', '=' => some .lessEqual
  | '>', '=' => some .greaterEqual
  | '=', '=' => some .equalEqual
  | '!', '=' => some .notEqual
  | '&', '&' => some .andAnd
  | '|', '|' => some .orOr
  | _, _ => none

def singleSymbol? : Char → Option Symbol
  | '!' => some .not
  | '-' => some .minus
  | '+' => some .plus
  | '*' => some .star
  | '/' => some .slash
  | '%' => some .percent
  | '<' => some .less
  | '>' => some .greater
  | '?' => some .question
  | ':' => some .colon
  | '.' => some .dot
  | ',' => some .comma
  | '(' => some .openParen
  | ')' => some .closeParen
  | '[' => some .openBracket
  | ']' => some .closeBracket
  | '\x7b' => some .openBrace
  | '\x7d' => some .closeBrace
  | _ => none

def symbolPiece? : List Char → Option Piece
  | c :: d :: _ =>
    match doubleSymbol? c d with
    | some s => some ([c, d], .symbol s)
    | none => (singleSymbol? c).map fun s => ([c], .symbol s)
  | [c] => (singleSymbol? c).map fun s => ([c], .symbol s)
  | [] => none

/-- The longer of two pieces. -/
def longer? (a b : Option Piece) : Option Piece :=
  match a, b with
  | some p, some q => if q.1.length ≤ p.1.length then some p else some q
  | some p, none => some p
  | none, q => q

/-- The longest token that the text begins with. -/
def piece? (text : List Char) : Option Piece :=
  [decimalPiece?, hexPiece?, doublePiece?, stringPiece?, rawPiece?, bytesPiece?, wordPiece?,
    symbolPiece?].foldl (fun best take => longer? best (take text)) none

/-- Lines and columns count from zero; columns count bytes. -/
structure Position where
  line : Nat
  column : Nat
  deriving DecidableEq, Repr

def Position.step (p : Position) (c : Char) : Position :=
  if c = '\n' then ⟨p.line + 1, 0⟩ else ⟨p.line, p.column + Text.Utf8.charSize c⟩

def Position.move (p : Position) (text : List Char) : Position := text.foldl Position.step p

def Position.text (p : Position) : String :=
  "[" ++ natString p.line ++ ":" ++ natString p.column ++ "]"

structure Lexeme where
  token : Token
  text : List Char
  start : Position
  stop : Position

/-- The tokens of a text, up to the first place where there is none. -/
structure Lexemes where
  found : List Lexeme
  invalid : Option Position

/-- A comment with the line ends behind it. -/
def takeComment? : List Char → Option (List Char)
  | '/' :: '/' :: rest =>
    let isEnd (c : Char) : Bool := c == '\n' || c == '\r'
    let body := rest.takeWhile fun c => !isEnd c
    let ends := (rest.dropWhile fun c => !isEnd c).takeWhile isEnd
    some ('/' :: '/' :: body ++ ends)
  | _ => none

def lexemesUpTo : Nat → Position → List Char → Lexemes
  | 0, _, _ => ⟨[], none⟩
  | _, _, [] => ⟨[], none⟩
  | fuel + 1, p, c :: rest =>
    if Text.isBlank c then lexemesUpTo fuel (p.step c) rest
    else match takeComment? (c :: rest) with
      | some comment => lexemesUpTo fuel (p.move comment) ((c :: rest).drop comment.length)
      | none =>
        match piece? (c :: rest) with
        | none => ⟨[], some p⟩
        | some (taken, token) =>
          let stop := p.move taken
          let more := lexemesUpTo fuel stop ((c :: rest).drop taken.length)
          { more with found := ⟨token, taken, p, stop⟩ :: more.found }

def lexemes (text : List Char) : Lexemes := lexemesUpTo text.length ⟨0, 0⟩ text

end ClaimMapping.Expression
