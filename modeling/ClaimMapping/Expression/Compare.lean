import ClaimMapping.Decimal.Numeral
import ClaimMapping.Expression.Value

namespace ClaimMapping.Expression

def doubleOfInt (n : Int64) : Float := Decimal.ofInt n.toInt

def doubleOfUInt (n : UInt64) : Float := Decimal.ofInt n.toNat

/-- The undefined number is neither below, equal to nor above any number. -/
def compareDouble? (a b : Float) : Option Ordering :=
  if a < b then some .lt else if a == b then some .eq else if b < a then some .gt else none

mutual

/-- Numbers of different types are compared by value, everything else only with its own type. -/
def Value.equals : Value → Value → Bool
  | .null, .null => true
  | .bool a, .bool b => a == b
  | .int a, .int b => a == b
  | .int a, .uint b => a.toInt == b.toNat
  | .int a, .double b => doubleOfInt a == b
  | .uint a, .int b => (a.toNat : Int) == b.toInt
  | .uint a, .uint b => a == b
  | .uint a, .double b => doubleOfUInt a == b
  | .double a, .int b => a == doubleOfInt b
  | .double a, .uint b => a == doubleOfUInt b
  | .double a, .double b => a == b
  | .string a, .string b => a == b
  | .bytes a, .bytes b => a == b
  | .list a, .list b => equalItems a b
  | .map a, .map b => equalEntries a b
  | .duration a, .duration b => a == b
  | .timestamp a, .timestamp b => a.same b
  | .function f a, .function g b => f == g && a.equals b
  | _, _ => false

def equalItems : List Value → List Value → Bool
  | [], [] => true
  | a :: as, b :: bs => a.equals b && equalItems as bs
  | _, _ => false

def equalEntries : List (Key × Value) → List (Key × Value) → Bool
  | [], [] => true
  | (k, a) :: as, (l, b) :: bs => k == l && a.equals b && equalEntries as bs
  | _, _ => false

end

/-- The order of two values that have one. -/
def Value.compare? : Value → Value → Option Ordering
  | .null, .null => some .eq
  | .bool a, .bool b => some (compare a b)
  | .int a, .int b => some (compare a.toInt b.toInt)
  | .int a, .uint b => some (compare a.toInt b.toNat)
  | .int a, .double b => compareDouble? (doubleOfInt a) b
  | .uint a, .int b => some (compare (a.toNat : Int) b.toInt)
  | .uint a, .uint b => some (compare a.toNat b.toNat)
  | .uint a, .double b => compareDouble? (doubleOfUInt a) b
  | .double a, .int b => compareDouble? a (doubleOfInt b)
  | .double a, .uint b => compareDouble? a (doubleOfUInt b)
  | .double a, .double b => compareDouble? a b
  | .string a, .string b => some (compare a b)
  | .duration a, .duration b => some (compare a.nanos b.nanos)
  | .timestamp a, .timestamp b => some (a.compare b)
  | _, _ => none

/-- Nanoseconds that fit 64 bits. -/
def fitsInt64 (n : Int) : Bool := -0x8000000000000000 ≤ n && n < 0x8000000000000000

/-- Empty and zero values are not true, nor is a time up to the beginning of 1970. -/
def Value.isTrue : Value → Bool
  | .null => false
  | .bool b => b
  | .int n => n != 0
  | .uint n => n != 0
  | .double x => x != 0.0
  | .string s => s != ""
  | .bytes bs => !bs.isEmpty
  | .list items => !items.isEmpty
  | .map entries => !entries.isEmpty
  | .duration d => d.nanos != 0 && fitsInt64 d.nanos
  | .timestamp t => 0 < t.nanos && fitsInt64 t.nanos
  | .function .. => false

end ClaimMapping.Expression
