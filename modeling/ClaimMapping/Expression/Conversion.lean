import ClaimMapping.Expression.Call
import ClaimMapping.Expression.Compare
import ClaimMapping.Text.Utf8

namespace ClaimMapping.Expression

/-- Positional, and whole numbers without a point. -/
def printedFloat : Decimal.Layout := ⟨none, false, "inf", "-inf", "NaN"⟩

def stringOf (c : Call) : Result Value := do
  let (v, _) ← c.target
  match v with
  | .string s => return .string s
  | .timestamp t => return .string (String.ofList t.text)
  | .duration d => return .string (String.ofList d.text)
  | .int n => return .string (intString n.toInt)
  | .uint n => return .string (natString n.toNat)
  | .double x => return .string (String.ofList (printedFloat.write x))
  | .bytes bs => return .string (String.ofList (Text.Utf8.decodeLossy bs))
  | v => c.refuse ("cannot convert " ++ v.inspect ++ " to string")

def bytesOf (c : Call) : Result Value := do
  let s ← c.stringArgument 0
  return .bytes (Text.Utf8.encode s.toList)

/-- Why a text is no number. -/
inductive NumeralDefect where
  | empty
  | badDigit
  | tooLarge
  | tooSmall
  deriving DecidableEq, Repr

def NumeralDefect.message : NumeralDefect → String
  | .empty => "cannot parse integer from empty string"
  | .badDigit => "invalid digit found in string"
  | .tooLarge => "number too large to fit in target type"
  | .tooSmall => "number too small to fit in target type"

/-- The value of digits up to `limit`. Of a bad digit and the overflow the first one counts. -/
def boundedDigits (limit : Nat) (overflow : NumeralDefect) (digits : List Char) :
    Except NumeralDefect Nat :=
  digits.foldlM (fun n c =>
    if !Decimal.isDigit c then .error .badDigit
    else
      let n := 10 * n + Decimal.digitValue c
      if limit < n then .error overflow else .ok n) 0

def readInt (text : List Char) : Except NumeralDefect Int64 :=
  match text with
  | [] => .error .empty
  | ['+'] => .error .badDigit
  | ['-'] => .error .badDigit
  | '+' :: ds => (boundedDigits 0x7FFFFFFFFFFFFFFF .tooLarge ds).map Int64.ofNat
  | '-' :: ds => (boundedDigits 0x8000000000000000 .tooSmall ds).map fun n => Int64.ofInt (-n)
  | ds => (boundedDigits 0x7FFFFFFFFFFFFFFF .tooLarge ds).map Int64.ofNat

def readUInt (text : List Char) : Except NumeralDefect UInt64 :=
  match text with
  | [] => .error .empty
  | ['+'] => .error .badDigit
  | '+' :: ds => (boundedDigits 0xFFFFFFFFFFFFFFFF .tooLarge ds).map UInt64.ofNat
  | ds => (boundedDigits 0xFFFFFFFFFFFFFFFF .tooLarge ds).map UInt64.ofNat

def numeralError (reason : String) : String := "string parse error: " ++ reason

def doubleOf (c : Call) : Result Value := do
  let (v, _) ← c.target
  match v with
  | .string "" => c.refuse (numeralError "cannot parse float from empty string")
  | .string s =>
    match Decimal.readFloat? s.toList with
    | some x => return .double x
    | none => c.refuse (numeralError "invalid float literal")
  | .double x => return .double x
  | .int n => return .double (doubleOfInt n)
  | .uint n => return .double (doubleOfUInt n)
  | v => c.refuse ("cannot convert " ++ v.inspect ++ " to double")

/-- Two to the power of 63, which counts as the greatest integer. -/
def intEnd : Float := doubleOfUInt 0x8000000000000000

def uintEnd : Float := intEnd + intEnd

def intOf (c : Call) : Result Value := do
  let (v, _) ← c.target
  match v with
  | .string s =>
    match readInt s.toList with
    | .ok n => return .int n
    | .error d => c.refuse (numeralError d.message)
  | .double x =>
    if intEnd < x ∨ x < -intEnd then c.refuse "integer overflow"
    else return .int (Int64.ofInt (Decimal.clampInt64 x))
  | .int n => return .int n
  | .uint n =>
    if n.toNat < 0x8000000000000000 then return .int n.toInt64 else c.refuse "integer overflow"
  | v => c.refuse ("cannot convert " ++ v.inspect ++ " to int")

def uintOf (c : Call) : Result Value := do
  let (v, _) ← c.target
  match v with
  | .string s =>
    match readUInt s.toList with
    | .ok n => return .uint n
    | .error d => c.refuse (numeralError d.message)
  | .double x =>
    if uintEnd < x ∨ x < 0.0 then c.refuse "unsigned integer overflow"
    else return .uint (UInt64.ofNat (Decimal.clampUInt64 x).toNat)
  | .int n => if 0 ≤ n then return .uint n.toUInt64 else c.refuse "unsigned integer overflow"
  | .uint n => return .uint n
  | v => c.refuse ("cannot convert " ++ v.inspect ++ " to uint")

def durationOf (c : Call) : Result Value := do
  let s ← c.stringArgument 0
  match Time.Duration.read? s.toList with
  | some d => return .duration d
  | none => c.refuse "no duration"

def timestampOf (c : Call) : Result Value := do
  let s ← c.stringArgument 0
  match Time.Timestamp.read? s.toList with
  | some t => return .timestamp t
  | none => c.refuse "no timestamp"

/-- A field of a time, by the clock of its own offset. -/
def timeField (field : Time.Timestamp → Int) (c : Call) : Result Value := do
  let (v, _) ← c.target
  match v with
  | .timestamp t => return .int (Int64.ofInt (field t))
  | v => fail (.notTimestamp v)

/-- Months, days of the month and of the year count from zero; only the date counts from one. -/
def timeField? (name : String) : Option (Time.Timestamp → Int) :=
  match name with
  | "getFullYear" => some fun t => t.date.year
  | "getMonth" => some fun t => t.date.month - 1
  | "getDayOfYear" => some fun t => t.date.dayOfYear
  | "getDayOfMonth" => some fun t => t.date.day - 1
  | "getDate" => some fun t => t.date.day
  | "getDayOfWeek" => some fun t => Time.weekday t.localDays
  | "getHours" => some fun t => t.hour
  | "getMinutes" => some fun t => t.minute
  | "getSeconds" => some fun t => t.wholeSecond
  | "getMilliseconds" => some fun t => t.nano / 1000000
  | _ => none

end ClaimMapping.Expression
