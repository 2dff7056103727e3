import ClaimMapping.Json.Token

namespace ClaimMapping.Json

/-- How deep arrays and objects may nest. -/
def maxDepth : Nat := 127

mutual

/-- A value at the front, with `depth` more levels allowed. -/
def value? : Nat → Nat → List Token → Option (Json × List Token)
  | 0, _, _ => none
  | _ + 1, _, .string s :: rest => some (.string s, rest)
  | _ + 1, _, .number n :: rest => some (.number n, rest)
  | _ + 1, _, .bool b :: rest => some (.bool b, rest)
  | _ + 1, _, .null :: rest => some (.null, rest)
  | _ + 1, _ + 1, .openBracket :: .closeBracket :: rest => some (.array [], rest)
  | fuel + 1, depth + 1, .openBracket :: rest =>
    (items? fuel depth rest).map fun (items, rest) => (.array items, rest)
  | _ + 1, _ + 1, .openBrace :: .closeBrace :: rest => some (.object [], rest)
  | fuel + 1, depth + 1, .openBrace :: rest =>
    (members? fuel depth rest).map fun (members, rest) => (.object (KeyMap.ofList members), rest)
  | _, _, _ => none

/-- The items of an array up to its closing bracket. -/
def items? : Nat → Nat → List Token → Option (List Json × List Token)
  | 0, _, _ => none
  | fuel + 1, depth, tokens => do
    let (item, rest) ← value? fuel depth tokens
    match rest with
    | .closeBracket :: rest => return ([item], rest)
    | .comma :: rest => do
      let (items, rest) ← items? fuel depth rest
      return (item :: items, rest)
    | _ => none

/-- The members of an object up to its closing brace, in the order of the text. -/
def members? : Nat → Nat → List Token → Option (List (String × Json) × List Token)
  | 0, _, _ => none
  | fuel + 1, depth, .string key :: .colon :: tokens => do
    let (value, rest) ← value? fuel depth tokens
    match rest with
    | .closeBrace :: rest => return ([(key, value)], rest)
    | .comma :: rest => do
      let (members, rest) ← members? fuel depth rest
      return ((key, value) :: members, rest)
    | _ => none
  | _ + 1, _, _ => none

end

/-- The value that the whole text writes. -/
def read? (text : String) : Option Json := do
  let tokens ← tokens? text.toList
  match value? (2 * tokens.length + 1) maxDepth tokens with
  | some (value, []) => some value
  | _ => none

end ClaimMapping.Json
