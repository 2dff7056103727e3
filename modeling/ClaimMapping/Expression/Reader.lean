import ClaimMapping.Expression.Token

namespace ClaimMapping.Expression

/-- A mistake is reported at the first token that no expression can go on with. -/
inductive SyntaxError where
  | unexpectedToken (text : String) (start stop : Position)
  | unexpectedEnd (stop : Position)
  | invalidToken (start : Position)
  deriving DecidableEq, Repr

def SyntaxError.message : SyntaxError → String
  | .unexpectedToken text start stop =>
    "Error parsing: unrecognized token: '" ++ text ++ "' at " ++ start.text ++ "->" ++ stop.text
  | .unexpectedEnd stop => "Error parsing: unrecognized eof at " ++ stop.text
  | .invalidToken start => "Error parsing: invalid token at " ++ start.text

/-- A literal without a value ends the reading without a report. -/
inductive ReadFailure where
  | mistake (e : SyntaxError)
  | crash
  deriving DecidableEq, Repr

namespace Reader

abbrev Outcome (α : Type) := Except ReadFailure α

/-- The mistake of finding the next token here; `ending` is the one of finding no token. -/
def unexpected {α : Type} (ending : SyntaxError) : List Lexeme → Except ReadFailure α
  | [] => .error (.mistake ending)
  | t :: _ => .error (.mistake (.unexpectedToken (String.ofList t.text) t.start t.stop))

def expect (ending : SyntaxError) (s : Symbol) (ts : List Lexeme) :
    Outcome (List Lexeme) :=
  match ts with
  | t :: rest => if t.token = .symbol s then .ok rest else unexpected ending ts
  | [] => unexpected ending []

/-- Whether some expression goes on with the token right behind a literal. -/
def canFollowLiteral : Token → Bool
  | .literal _ => false
  | .identifier _ => false
  | .symbol s => s ∉ [Symbol.openParen, .not, .notNot, .minusMinus]

/-- A literal without a value is noticed once the next token is known to be in place. -/
def valueless {α : Type} (ending : SyntaxError) (ts : List Lexeme) : Outcome α :=
  match ts with
  | [] => match ending with
    | .invalidToken _ => .error (.mistake ending)
    | _ => .error .crash
  | t :: _ => if canFollowLiteral t.token then .error .crash else unexpected ending ts

def takeIdentifier (ending : SyntaxError) (ts : List Lexeme) : Outcome (String × List Lexeme) :=
  match ts with
  | [] => unexpected ending []
  | t :: rest => match t.token with
    | .identifier name => .ok (name, rest)
    | _ => unexpected ending ts

def relation? : Symbol → Option Relation
  | .less => some .less
  | .lessEqual => some .lessOrEqual
  | .greater => some .greater
  | .greaterEqual => some .greaterOrEqual
  | .equalEqual => some .equal
  | .notEqual => some .notEqual
  | .within => some .within
  | _ => none

def sum? : Symbol → Option Arithmetic
  | .plus => some .add
  | .minus => some .subtract
  | _ => none

def product? : Symbol → Option Arithmetic
  | .star => some .multiply
  | .slash => some .divide
  | .percent => some .remainder
  | _ => none

def unary? : Symbol → Option Unary
  | .not => some .not
  | .notNot => some .truth
  | .minus => some .minus
  | .minusMinus => some .minusTwice
  | _ => none

/-- The next token, if it is one of the wanted symbols. -/
def takeOperator? {α : Type} (wanted : Symbol → Option α) : List Lexeme → Option (α × List Lexeme)
  | t :: rest => match t.token with
    | .symbol s => (wanted s).map fun op => (op, rest)
    | _ => none
  | [] => none

def takeSymbol? (s : Symbol) (ts : List Lexeme) : Option (List Lexeme) :=
  (takeOperator? (fun x => if x = s then some () else none) ts).map Prod.snd

mutual

/-- From the loosest to the tightest: the conditional, `||`, `&&`, one relation, sums, products, one
sign, and what is chained by points, brackets and braces. -/
def expr (ending : SyntaxError) : Nat → List Lexeme → Outcome (Expr × List Lexeme)
  | 0, ts => unexpected ending ts
  | fuel + 1, ts => do
    let (test, rest) ← disjunction ending fuel ts
    match takeSymbol? .question rest with
    | none => return (test, rest)
    | some rest =>
      let (yes, rest) ← disjunction ending fuel rest
      let rest ← expect ending .colon rest
      let (no, rest) ← expr ending fuel rest
      return (.conditional test yes no, rest)

def disjunction (ending : SyntaxError) : Nat → List Lexeme → Outcome (Expr × List Lexeme)
  | 0, ts => unexpected ending ts
  | fuel + 1, ts => do
    let (first, rest) ← conjunction ending fuel ts
    moreOr ending fuel first rest

def moreOr (ending : SyntaxError) : Nat → Expr → List Lexeme → Outcome (Expr × List Lexeme)
  | 0, _, ts => unexpected ending ts
  | fuel + 1, left, ts =>
    match takeSymbol? .orOr ts with
    | none => .ok (left, ts)
    | some rest => do
      let (right, rest) ← conjunction ending fuel rest
      moreOr ending fuel (.or left right) rest

def conjunction (ending : SyntaxError) : Nat → List Lexeme → Outcome (Expr × List Lexeme)
  | 0, ts => unexpected ending ts
  | fuel + 1, ts => do
    let (first, rest) ← comparison ending fuel ts
    moreAnd ending fuel first rest

def moreAnd (ending : SyntaxError) : Nat → Expr → List Lexeme → Outcome (Expr × List Lexeme)
  | 0, _, ts => unexpected ending ts
  | fuel + 1, left, ts =>
    match takeSymbol? .andAnd ts with
    | none => .ok (left, ts)
    | some rest => do
      let (right, rest) ← comparison ending fuel rest
      moreAnd ending fuel (.and left right) rest

/-- Relations do not chain. -/
def comparison (ending : SyntaxError) : Nat → List Lexeme → Outcome (Expr × List Lexeme)
  | 0, ts => unexpected ending ts
  | fuel + 1, ts => do
    let (left, rest) ← sum ending fuel ts
    match takeOperator? relation? rest with
    | none => return (left, rest)
    | some (op, rest) =>
      let (right, rest) ← sum ending fuel rest
      return (.relation op left right, rest)

def sum (ending : SyntaxError) : Nat → List Lexeme → Outcome (Expr × List Lexeme)
  | 0, ts => unexpected ending ts
  | fuel + 1, ts => do
    let (first, rest) ← product ending fuel ts
    moreSum ending fuel first rest

def moreSum (ending : SyntaxError) : Nat → Expr → List Lexeme → Outcome (Expr × List Lexeme)
  | 0, _, ts => unexpected ending ts
  | fuel + 1, left, ts =>
    match takeOperator? sum? ts with
    | none => .ok (left, ts)
    | some (op, rest) => do
      let (right, rest) ← product ending fuel rest
      moreSum ending fuel (.arithmetic op left right) rest

def product (ending : SyntaxError) : Nat → List Lexeme → Outcome (Expr × List Lexeme)
  | 0, ts => unexpected ending ts
  | fuel + 1, ts => do
    let (first, rest) ← signed ending fuel ts
    moreProduct ending fuel first rest

def moreProduct (ending : SyntaxError) : Nat → Expr → List Lexeme → Outcome (Expr × List Lexeme)
  | 0, _, ts => unexpected ending ts
  | fuel + 1, left, ts =>
    match takeOperator? product? ts with
    | none => .ok (left, ts)
    | some (op, rest) => do
      let (right, rest) ← signed ending fuel rest
      moreProduct ending fuel (.arithmetic op left right) rest

/-- At most one sign in front. -/
def signed (ending : SyntaxError) : Nat → List Lexeme → Outcome (Expr × List Lexeme)
  | 0, ts => unexpected ending ts
  | fuel + 1, ts =>
    match takeOperator? unary? ts with
    | none => chain ending fuel ts
    | some (op, rest) => do
      let (e, rest) ← chain ending fuel rest
      return (.unary op e, rest)

def chain (ending : SyntaxError) : Nat → List Lexeme → Outcome (Expr × List Lexeme)
  | 0, ts => unexpected ending ts
  | fuel + 1, ts => do
    let (first, rest) ← primary ending fuel ts
    moreChain ending fuel first rest

def moreChain (ending : SyntaxError) : Nat → Expr → List Lexeme → Outcome (Expr × List Lexeme)
  | 0, _, ts => unexpected ending ts
  | fuel + 1, e, ts =>
    match takeSymbol? .dot ts, takeSymbol? .openBracket ts, takeSymbol? .openBrace ts with
    | some rest, _, _ => do
      let (name, rest) ← takeIdentifier ending rest
      match takeSymbol? .openParen rest with
      | none => moreChain ending fuel (.member e name) rest
      | some rest =>
        let (args, rest) ← items ending .closeParen fuel rest
        moreChain ending fuel (.callOn name e args) rest
    | none, some rest, _ => do
      let (i, rest) ← expr ending fuel rest
      let rest ← expect ending .closeBracket rest
      moreChain ending fuel (.index e i) rest
    | none, none, some rest => do
      let (fields, rest) ← fields ending fuel rest
      moreChain ending fuel (.construct e fields) rest
    | none, none, none => .ok (e, ts)

def primary (ending : SyntaxError) : Nat → List Lexeme → Outcome (Expr × List Lexeme)
  | 0, ts => unexpected ending ts
  | _ + 1, [] => unexpected ending []
  | fuel + 1, t :: rest =>
    match t.token with
    | .literal (some l) => .ok (.literal l, rest)
    | .literal none => valueless ending rest
    | .identifier name => named ending fuel name rest
    | .symbol .dot => do
      let (name, rest) ← takeIdentifier ending rest
      named ending fuel name rest
    | .symbol .openParen => do
      let (e, rest) ← expr ending fuel rest
      let rest ← expect ending .closeParen rest
      return (e, rest)
    | .symbol .openBracket => do
      let (es, rest) ← items ending .closeBracket fuel rest
      return (.list es, rest)
    | .symbol .openBrace => do
      let (entries, rest) ← entries ending fuel rest
      return (.map entries, rest)
    | _ => unexpected ending (t :: rest)

/-- A name, or a call of the function of that name. -/
def named (ending : SyntaxError) : Nat → String → List Lexeme → Outcome (Expr × List Lexeme)
  | 0, _, ts => unexpected ending ts
  | fuel + 1, name, ts =>
    match takeSymbol? .openParen ts with
    | none => .ok (.name name, ts)
    | some rest => do
      let (args, rest) ← items ending .closeParen fuel rest
      return (.call name args, rest)

/-- Expressions with commas between them up to `close`; a comma may stand before it. -/
def items (ending : SyntaxError) (close : Symbol) :
    Nat → List Lexeme → Outcome (List Expr × List Lexeme)
  | 0, ts => unexpected ending ts
  | fuel + 1, ts =>
    match takeSymbol? close ts with
    | some rest => .ok ([], rest)
    | none => do
      let (e, rest) ← expr ending fuel ts
      match takeSymbol? .comma rest with
      | none =>
        let rest ← expect ending close rest
        return ([e], rest)
      | some rest =>
        let (es, rest) ← items ending close fuel rest
        return (e :: es, rest)

def entries (ending : SyntaxError) :
    Nat → List Lexeme → Outcome ((List (Expr × Expr)) × List Lexeme)
  | 0, ts => unexpected ending ts
  | fuel + 1, ts =>
    match takeSymbol? .closeBrace ts with
    | some rest => .ok ([], rest)
    | none => do
      let (key, rest) ← expr ending fuel ts
      let rest ← expect ending .colon rest
      let (value, rest) ← expr ending fuel rest
      match takeSymbol? .comma rest with
      | none =>
        let rest ← expect ending .closeBrace rest
        return ([(key, value)], rest)
      | some rest =>
        let (more, rest) ← entries ending fuel rest
        return ((key, value) :: more, rest)

def fields (ending : SyntaxError) :
    Nat → List Lexeme → Outcome ((List (String × Expr)) × List Lexeme)
  | 0, ts => unexpected ending ts
  | fuel + 1, ts =>
    match takeSymbol? .closeBrace ts with
    | some rest => .ok ([], rest)
    | none => do
      let (name, rest) ← takeIdentifier ending ts
      let rest ← expect ending .colon rest
      let (value, rest) ← expr ending fuel rest
      match takeSymbol? .comma rest with
      | none =>
        let rest ← expect ending .closeBrace rest
        return ([(name, value)], rest)
      | some rest =>
        let (more, rest) ← fields ending fuel rest
        return ((name, value) :: more, rest)

end

end Reader

/-- The mistake of reading on at the end of a text. -/
def Lexemes.ending (l : Lexemes) : SyntaxError :=
  match l.invalid with
  | some p => .invalidToken p
  | none =>
    match l.found.getLast? with
    | some t => .unexpectedEnd t.stop
    | none => .unexpectedEnd ⟨0, 0⟩

/-- From one token to the next there are less than sixteen steps. -/
def readLexemes (l : Lexemes) : Except ReadFailure Expr := do
  let (e, rest) ← Reader.expr l.ending (16 * (l.found.length + 1)) l.found
  match rest, l.invalid with
  | [], none => return e
  | rest, _ => Reader.unexpected l.ending rest

/-- The expression that the whole text writes. -/
def read (source : String) : Except ReadFailure Expr := readLexemes (lexemes source.toList)

end ClaimMapping.Expression
