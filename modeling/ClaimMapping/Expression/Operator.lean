import ClaimMapping.Expression.Compare
import ClaimMapping.Expression.Fault
import ClaimMapping.Text.Search
import ClaimMapping.Text.Utf8

namespace ClaimMapping.Expression

def Arithmetic.name : Arithmetic → String
  | .add => "add"
  | .subtract => "sub"
  | .multiply => "mul"
  | .divide => "div"
  | .remainder => "rem"

/-- Whether the quotient of two signed integers exists. -/
def hasQuotient (a b : Int64) : Bool := b != 0 && !(a == Int64.minValue && b == -1)

/-- Integers wrap around. Dividing by zero ends the evaluation without a report, and so does the one
quotient that does not fit. -/
def Arithmetic.onInts : Arithmetic → Int64 → Int64 → Result Value
  | .add, a, b => .ok (.int (a + b))
  | .subtract, a, b => .ok (.int (a - b))
  | .multiply, a, b => .ok (.int (a * b))
  | .divide, a, b => if hasQuotient a b then .ok (.int (a / b)) else crash
  | .remainder, a, b => if hasQuotient a b then .ok (.int (a % b)) else crash

def Arithmetic.onUInts : Arithmetic → UInt64 → UInt64 → Result Value
  | .add, a, b => .ok (.uint (a + b))
  | .subtract, a, b => .ok (.uint (a - b))
  | .multiply, a, b => .ok (.uint (a * b))
  | .divide, a, b => if b = 0 then crash else .ok (.uint (a / b))
  | .remainder, a, b => if b = 0 then crash else .ok (.uint (a % b))

def Arithmetic.onDoubles : Arithmetic → Float → Float → Float
  | .add, a, b => a + b
  | .subtract, a, b => a - b
  | .multiply, a, b => a * b
  | .divide, a, b => a / b
  | .remainder, a, b => Decimal.remainder a b

/-- What sums and differences mean for values that are no numbers. Durations and times have no
bounds here; the types of the engine do, and overflow beyond them. -/
def Arithmetic.onOthers? : Arithmetic → Value → Value → Option Value
  | .add, .string a, .string b => some (.string (a ++ b))
  | .add, .list a, .list b => some (.list (a ++ b))
  | .add, .map a, .map b => some (.map (Entries.merge a b))
  | .add, .duration a, .duration b => some (.duration ⟨a.nanos + b.nanos⟩)
  | .add, .timestamp t, .duration d => some (.timestamp (t.add d.nanos))
  | .add, .duration d, .timestamp t => some (.timestamp (t.add d.nanos))
  | .subtract, .duration a, .duration b => some (.duration ⟨a.nanos - b.nanos⟩)
  | .subtract, .timestamp t, .duration d => some (.timestamp (t.add (-d.nanos)))
  | .subtract, .timestamp a, .timestamp b => some (.duration ⟨a.since b⟩)
  | _, _, _ => none

/-- A number beside a double is one itself. -/
def asDouble? : Value → Option Float
  | .double x => some x
  | .int n => some (doubleOfInt n)
  | .uint n => some (doubleOfUInt n)
  | _ => none

def Arithmetic.apply (op : Arithmetic) (a b : Value) : Result Value :=
  match a, b with
  | .int a, .int b => op.onInts a b
  | .uint a, .uint b => op.onUInts a b
  | _, _ =>
    let mixed := match a, b with
      | .double x, b => (asDouble? b).map fun y => (x, y)
      | a, .double y => (asDouble? a).map fun x => (x, y)
      | _, _ => none
    match mixed with
    | some (x, y) => .ok (.double (op.onDoubles x y))
    | none =>
      match op.onOthers? a b with
      | some v => .ok v
      | none => fail (.unsupportedBinary op.name a b)

def Unary.apply (op : Unary) (v : Value) : Result Value :=
  match op, v with
  | .not, v => .ok (.bool !v.isTrue)
  | .truth, v => .ok (.bool v.isTrue)
  | .minus, .int n => .ok (.int (-n))
  | .minus, .double x => .ok (.double (-x))
  | .minus, v => fail (.unsupportedUnary "minus" v)
  | .minusTwice, .int n => .ok (.int n)
  | .minusTwice, .uint n => .ok (.uint n)
  | .minusTwice, .double x => .ok (.double x)
  | .minusTwice, v => fail (.unsupportedUnary "negate" v)

def ordered (a b : Value) (p : Ordering → Bool) : Result Bool :=
  match a.compare? b with
  | some o => .ok (p o)
  | none => fail (.notComparable a b)

def hasItem (items : List Value) (v : Value) : Bool := items.any fun item => item.equals v

/-- Part of a string, item of a list or key of a map. -/
def isWithin : Value → Value → Result Bool
  | .string a, .string b => .ok (Text.contains a.toList b.toList)
  | v, .list items => .ok (hasItem items v)
  | v, .map entries => .ok (v.toKey?.any (Entries.contains entries))
  | a, b => fail (.notComparable a b)

def Relation.holds (op : Relation) (a b : Value) : Result Bool :=
  match op with
  | .less => ordered a b (· == .lt)
  | .lessOrEqual => ordered a b (· != .gt)
  | .greater => ordered a b (· == .gt)
  | .greaterOrEqual => ordered a b (· != .lt)
  | .equal => .ok (a.equals b)
  | .notEqual => .ok (!a.equals b)
  | .within => isWithin a b

def orNull (v : Option Value) : Result Value := .ok (v.getD .null)

/-- What is not there is null. Strings are indexed by bytes. -/
def Value.at (v index : Value) : Result Value :=
  match v, index with
  | .list items, .int i => orNull (if i < 0 then none else items[i.toInt.toNat]?)
  | .string s, .int i =>
    orNull <| if i < 0 then none else
      (Text.Utf8.singleByteAt? s.toList i.toInt.toNat).map fun c => .string (String.singleton c)
  | .map entries, index =>
    match index.toKey? with
    | some key => orNull (Entries.find? entries key)
    | none => fail (.unusableMapIndex index)
  | .list _, index => fail (.unusableListIndex index)
  | v, index => fail (.unusableIndex v index)

def Value.entry? : Value → String → Option Value
  | .map entries, name => Entries.get? entries (.string name)
  | _, _ => none

end ClaimMapping.Expression
