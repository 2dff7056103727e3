import ClaimMapping.CommandLine.Toml.Moment
import ClaimMapping.CommandLine.Toml.Number
import ClaimMapping.CommandLine.Toml.Quoted

namespace ClaimMapping.CommandLine.Toml

/-- The values of pairs: scalars, arrays and tables on one line. -/
inductive Value where
  | bool (b : Bool)
  | number (n : Number)
  | text (s : String)
  /-- What looks like a date or a time of day. -/
  | moment (text : List Char)
  | list (items : List Value)
  /-- Keys in their order, with repetitions. A table that keys with points made can get further
  keys. -/
  | table (isOpen : Bool) (pairs : List (String × Value))

abbrev Pairs := List (String × Value)

/-- Replaces the first value of a key. -/
def replaceFirst (name : String) (v : Value) : Pairs → Pairs
  | [] => []
  | (k, w) :: pairs => if k = name then (k, v) :: pairs else (k, w) :: replaceFirst name v pairs

/-- Adds a value under a key with points. -/
def put? (v : Value) : List String → Pairs → Option Pairs
  | [], _ => none
  | [name], pairs => some (pairs ++ [(name, v)])
  | name :: path, pairs =>
    match pairs.lookup name with
    | none => (put? v path []).map fun inner => pairs ++ [(name, .table true inner)]
    | some (.table true inner) =>
      (put? v path inner).map fun inner => replaceFirst name (.table true inner) pairs
    | some _ => none

/-- A letter between date and time, or a minus sign that is not the one of an exponent. -/
def isMomentWord (word : List Char) : Bool :=
  'T' ∈ word || 't' ∈ word
    || ('-' ∈ word.drop 1 && !Text.contains ['e', '-'] word && !Text.contains ['E', '-'] word)

def startsNumber (word : List Char) : Bool :=
  match word with
  | [] => false
  | c :: _ => c == '-' || Decimal.isDigit c || word == "inf".toList || word == "nan".toList

def takeNumberOrMoment? (word rest : List Char) : Option (Value × List Char) :=
  if isMomentWord word || rest.head? == some ':' then
    (takeMoment? word rest).map fun (text, rest) => (.moment text, rest)
  else (takeNumber? word rest).map fun (n, rest) => (.number n, rest)

def takeScalar? (text : List Char) : Option (Value × List Char) :=
  match takeWord? text with
  | some (word, rest) =>
    if word = "true".toList then some (.bool true, rest)
    else if word = "false".toList then some (.bool false, rest)
    else if startsNumber word then takeNumberOrMoment? word rest
    else none
  | none =>
    match dropSign? '+' text with
    | some rest => do
      let (word, rest) ← takeWord? rest
      let (n, rest) ← takeNumber? word rest
      return (.number n, rest)
    | none => (takeQuoted? text).map fun (s, rest) => (.text s, rest)

mutual

def takeValue? : Nat → List Char → Option (Value × List Char)
  | 0, _ => none
  | fuel + 1, text =>
    match text with
    | '[' :: rest => (takeItems? fuel rest).map fun (items, rest) => (.list items, rest)
    | '\x7b' :: rest =>
      match skipBlank rest with
      | '\x7d' :: rest => some (.table false [], rest)
      | rest => (takePairs? fuel [] rest).map fun (pairs, rest) => (.table false pairs, rest)
    | text => takeScalar? text

/-- The items of an array, which may go over several lines and end in a comma. -/
def takeItems? : Nat → List Char → Option (List Value × List Char)
  | 0, _ => none
  | fuel + 1, text =>
    match skipSpace text with
    | ']' :: rest => some ([], rest)
    | rest => do
      let (item, rest) ← takeValue? fuel rest
      match skipSpace rest with
      | ']' :: rest => return ([item], rest)
      | ',' :: rest =>
        let (items, rest) ← takeItems? fuel rest
        return (item :: items, rest)
      | _ => none

/-- The pairs of a table on one line, which cannot end in a comma. -/
def takePairs? : Nat → Pairs → List Char → Option (Pairs × List Char)
  | 0, _, _ => none
  | fuel + 1, pairs, text => do
    let (key, rest) ← takeKey? (text.length + 1) text
    let rest ← dropSign? '=' rest
    let (v, rest) ← takeValue? fuel (skipBlank rest)
    let pairs ← put? v key pairs
    match skipBlank rest with
    | '\x7d' :: rest => return (pairs, rest)
    | ',' :: rest => takePairs? fuel pairs rest
    | _ => none

end

end ClaimMapping.CommandLine.Toml
