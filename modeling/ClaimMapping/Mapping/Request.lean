import ClaimMapping.Json.Basic

namespace ClaimMapping.Mapping

/-- What is asked of a run: a payload, an expression for each target attribute, a condition, and
perhaps the name of the provider of the payload. -/
structure Request where
  payload : String
  mapping : Option (KeyMap String)
  /-- Empty for no condition. -/
  condition : String
  provider : Option String
  deriving DecidableEq, Repr

namespace Request

/-- An object of texts. -/
def textsOf? (j : Json) : Option (KeyMap String) := do
  let members ← j.object?
  members.mapM fun e => e.2.string?.map fun s => (e.1, s)

/-- An absent or null value is none. -/
def optional? {α : Type} (read : Json → Option α) : Option Json → Option (Option α)
  | none => some none
  | some .null => some none
  | some j => (read j).map some

/-- The fields in their order, each absent or present. -/
def ofFields? (payload mapping condition provider : Option Json) : Option Request := do
  let payload ← payload.bind Json.string?
  let mapping ← optional? textsOf? mapping
  let condition ← match condition with
    | none => some ""
    | some j => j.string?
  let provider ← optional? Json.string? provider
  return ⟨payload, mapping, condition, provider⟩

/-- An object with the fields as members, other members ignored, or the fields in an array, of which
the first two must be there. -/
def ofJson? : Json → Option Request
  | .object members =>
    let field (name : String) := KeyMap.get? members name
    ofFields? (field "payload") (field "attribute_mapping") (field "attribute_condition")
      (field "provider")
  | .array items =>
    if 2 ≤ items.length ∧ items.length ≤ 4 then
      ofFields? items[0]? items[1]? items[2]? items[3]?
    else none
  | _ => none

end Request
end ClaimMapping.Mapping
