import ClaimMapping.Expression.Conversion
import ClaimMapping.Expression.Operator
import ClaimMapping.Regex.Match

namespace ClaimMapping.Expression

/-- Strings count bytes. -/
def size (c : Call) : Result Value := do
  let (v, _) ← c.target
  match v with
  | .list items => return .int (Int64.ofNat items.length)
  | .map entries => return .int (Int64.ofNat entries.length)
  | .string s => return .int (Int64.ofNat (Text.Utf8.size s.toList))
  | .bytes bs => return .int (Int64.ofNat bs.length)
  | v => c.refuse ("cannot determine the size of " ++ v.inspect)

/-- Whether `part` occurs in one piece. -/
def hasRun (part : List UInt8) : List UInt8 → Bool
  | [] => part.isEmpty
  | b :: bs => part.isPrefixOf (b :: bs) || hasRun part bs

def containsValue (v arg : Value) : Result Bool :=
  match v, arg with
  | .list items, arg => .ok (hasItem items arg)
  | .map entries, arg =>
    match arg.toKey? with
    | some key => .ok (Entries.contains entries key)
    | none => fail (.unusableKey arg)
  | .string s, .string part => .ok (Text.contains part.toList s.toList)
  | .bytes bs, .bytes part => if part.isEmpty then crash else .ok (hasRun part bs)
  | _, _ => .ok false

def contains (c : Call) : Result Value := do
  let (v, next) ← c.target
  let arg ← c.argument next
  let found ← containsValue v arg
  return .bool found

def stringTest (p : List Char → List Char → Bool) (c : Call) : Result Value := do
  let (s, next) ← c.stringTarget
  let arg ← c.stringArgument next
  return .bool (p arg.toList s.toList)

def matchesPattern (c : Call) : Result Value := do
  let (s, next) ← c.stringTarget
  let pattern ← c.stringArgument next
  match Regex.read? Regex.fits pattern.toList with
  | some r => return .bool (r.hasMatch s.toList)
  | none => c.refuse ("'" ++ pattern ++ "' is no regular expression")

/-- Whether a member is there: only its absence is false, other faults stay. -/
def has (c : Call) : Result Value :=
  match c.argument 0 with
  | .ok _ => .ok (.bool true)
  | .error (.fault (.noSuchKey _)) => .ok (.bool false)
  | .error e => .error e

/-- The first argument stays only when it is strictly beyond the next one. -/
def extreme (beyond : Ordering) : Value → List Value → Result Value
  | best, [] => .ok best
  | best, v :: vs =>
    match best.compare? v with
    | none => fail (.notComparable best v)
    | some o => extreme beyond (if o = beyond then best else v) vs

/-- A single list stands for its items, and a single other value for itself. -/
def extremeOf (beyond : Ordering) (c : Call) : Result Value := do
  let args ← c.arguments
  match args with
  | [.list []] => return .null
  | [.list (v :: vs)] => extreme beyond v vs
  | [] => return .null
  | v :: vs => extreme beyond v vs

/-- The elements that a loop goes through: the items of a list, the keys of a map. That keys come in
increasing order is an assumption: the engine promises no order of the keys of a map, and whatever
compares two runs assumes that both go through equal maps in the same order. -/
def elements (v : Value) : Result (List Value) :=
  match v with
  | .list items => .ok items
  | .map entries => .ok (entries.map fun e => .ofKey e.1)
  | v => fail (.notList v)

/-- A loop function: its target, the loop variable and the body, then the work. -/
def withLoop (work : (Value → Result Value) → Value → Result Value) (c : Call) : Result Value := do
  let (v, next) ← c.target
  let (x, body) ← c.loop next
  work (body.forElement c.scope x) v

def mapLoop (f : Value → Result Value) (v : Value) : Result Value := do
  let vs ← elements v
  let results ← vs.mapM f
  return .list results

def isBool (b : Bool) : Value → Bool
  | .bool x => x == b
  | _ => false

def filterItems (f : Value → Result Value) : List Value → Result (List Value)
  | [] => .ok []
  | v :: vs => do
    let verdict ← f v
    let rest ← filterItems f vs
    return if isBool true verdict then v :: rest else rest

/-- Only lists can be filtered. -/
def filterLoop (f : Value → Result Value) (v : Value) : Result Value :=
  match v with
  | .list items => (filterItems f items).map .list
  | v => fail (.notList v)

/-- Whether some element gives the wanted truth value; the loop ends with the first one. -/
def anyItem (f : Value → Result Value) (wanted : Bool) : List Value → Result Bool
  | [] => .ok false
  | v :: vs => do
    let verdict ← f v
    if isBool wanted verdict then return true else anyItem f wanted vs

def allLoop (f : Value → Result Value) (v : Value) : Result Value := do
  let vs ← elements v
  let refuted ← anyItem f false vs
  return .bool !refuted

def existsLoop (f : Value → Result Value) (v : Value) : Result Value := do
  let vs ← elements v
  let found ← anyItem f true vs
  return .bool found

/-- The loop ends with the second element that is true. -/
def oneItem (f : Value → Result Value) : List Value → Result Bool
  | [] => .ok false
  | v :: vs => do
    let verdict ← f v
    if isBool true verdict then (anyItem f true vs).map not else oneItem f vs

def existsOneLoop (f : Value → Result Value) (v : Value) : Result Value := do
  let vs ← elements v
  let found ← oneItem f vs
  return .bool found

/-- The functions that every environment has. -/
def builtin? (name : String) : Option (Call → Result Value) :=
  match name with
  | "contains" => some contains
  | "size" => some size
  | "has" => some has
  | "map" => some (withLoop mapLoop)
  | "filter" => some (withLoop filterLoop)
  | "all" => some (withLoop allLoop)
  | "exists" => some (withLoop existsLoop)
  | "exists_one" => some (withLoop existsOneLoop)
  | "max" => some (extremeOf .gt)
  | "min" => some (extremeOf .lt)
  | "startsWith" => some (stringTest Text.startsWith)
  | "endsWith" => some (stringTest Text.endsWith)
  | "matches" => some matchesPattern
  | "string" => some stringOf
  | "bytes" => some bytesOf
  | "double" => some doubleOf
  | "int" => some intOf
  | "uint" => some uintOf
  | "duration" => some durationOf
  | "timestamp" => some timestampOf
  | _ => (timeField? name).map timeField

end ClaimMapping.Expression
