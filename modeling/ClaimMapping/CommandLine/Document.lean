import ClaimMapping.Decimal.Layout
import ClaimMapping.Decimal.Numeral
import ClaimMapping.Json.Basic

namespace ClaimMapping.CommandLine

/-- The contents of a request file, whatever its format. -/
inductive Document where
  | null
  | bool (b : Bool)
  | integer (n : Int)
  | real (x : Float)
  | text (s : String)
  | list (items : List Document)
  | table (entries : List (String × Document))

namespace Document

instance : Inhabited Document := ⟨.null⟩

/-- Whole numbers that do not fit 64 bits with a sign are kept as binary64 numbers. -/
def ofNumber : Json.Number → Document
  | .natural n =>
    if n.toNat < 0x8000000000000000 then .integer n.toNat else .real (Decimal.ofInt n.toNat)
  | .negative n => .integer n.toInt
  | .real x => .real x

mutual

def ofJson : Json → Document
  | .null => .null
  | .bool b => .bool b
  | .number n => ofNumber n
  | .string s => .text s
  | .array items => .list (ofJsonItems items)
  | .object members => .table (ofJsonMembers members)

def ofJsonItems : List Json → List Document
  | [] => []
  | j :: js => ofJson j :: ofJsonItems js

def ofJsonMembers : List (String × Json) → List (String × Document)
  | [] => []
  | (key, j) :: members => (key, ofJson j) :: ofJsonMembers members

end

/-- Positional, and whole numbers without a point. -/
def numberLayout : Decimal.Layout := ⟨none, false, "inf", "-inf", "NaN"⟩

/-- The text of a scalar. -/
def scalarText? : Document → Option String
  | .text s => some s
  | .bool b => some (if b then "true" else "false")
  | .integer n => some (String.ofList (Decimal.intText n))
  | .real x => some (String.ofList (numberLayout.write x))
  | _ => none

def entries? : Document → Option (KeyMap Document)
  | .table entries => some entries
  | _ => none

end Document
end ClaimMapping.CommandLine
