import ClaimMapping.Json.Printer
import ClaimMapping.Json.Reader
import ClaimMapping.Proofs.KeyMap.Lookup

namespace ClaimMapping.Json

/-- The members of an object are in the order of a map, and a negative integer is negative. -/
inductive WellFormed : Json → Prop where
  | null : WellFormed .null
  | bool (b : Bool) : WellFormed (.bool b)
  | natural (n : UInt64) : WellFormed (.number (.natural n))
  | negative {n : Int64} (h : n < 0) : WellFormed (.number (.negative n))
  | real (x : Float) : WellFormed (.number (.real x))
  | string (s : String) : WellFormed (.string s)
  | array {items : List Json} (h : ∀ j ∈ items, WellFormed j) : WellFormed (.array items)
  | object {members : List (String × Json)} (ordered : KeyMap.Ordered members)
      (h : ∀ e ∈ members, WellFormed e.2) : WellFormed (.object members)

mutual

/-- How many arrays and objects stand inside one another. -/
def depth : Json → Nat
  | .array items => itemsDepth items + 1
  | .object members => membersDepth members + 1
  | _ => 0

def itemsDepth : List Json → Nat
  | [] => 0
  | j :: js => max (depth j) (itemsDepth js)

def membersDepth : List (String × Json) → Nat
  | [] => 0
  | (_, j) :: members => max (depth j) (membersDepth members)

end

mutual

/-- The binary64 numbers in a value. -/
def reals : Json → List Float
  | .number (.real x) => [x]
  | .array items => itemsReals items
  | .object members => membersReals members
  | _ => []

def itemsReals : List Json → List Float
  | [] => []
  | j :: js => reals j ++ itemsReals js

def membersReals : List (String × Json) → List Float
  | [] => []
  | (_, j) :: members => reals j ++ membersReals members

end

/-- Written and read again, a binary64 number is the same. -/
def Returns (x : Float) : Prop := read? (compact (.number (.real x))) = some (.number (.real x))

/-- What a binary64 number is read as when it was written. -/
def rereadReal (x : Float) : Json := (read? (compact (.number (.real x)))).getD .null

mutual

/-- What a value is read as when it was written: the same, but for its binary64 numbers. -/
def reread : Json → Json
  | .number (.real x) => rereadReal x
  | .array items => .array (rereadItems items)
  | .object members => .object (rereadMembers members)
  | j => j

def rereadItems : List Json → List Json
  | [] => []
  | j :: js => reread j :: rereadItems js

def rereadMembers : List (String × Json) → List (String × Json)
  | [] => []
  | (key, j) :: members => (key, reread j) :: rereadMembers members

end

mutual

/-- The tokens that a value is written as. -/
def tokens : Json → List Token
  | .null => [.null]
  | .bool b => [.bool b]
  | .number n => [.number n]
  | .string s => [.string s]
  | .array items => .openBracket :: (itemTokens items ++ [.closeBracket])
  | .object members => .openBrace :: (memberTokens members ++ [.closeBrace])

def itemTokens : List Json → List Token
  | [] => []
  | [item] => tokens item
  | item :: next :: items => tokens item ++ .comma :: itemTokens (next :: items)

def memberTokens : List (String × Json) → List Token
  | [] => []
  | [(key, value)] => .string key :: .colon :: tokens value
  | (key, value) :: next :: members =>
    .string key :: .colon :: (tokens value ++ .comma :: memberTokens (next :: members))

end

/-- Every value has a first token, and it is no closing bracket. -/
theorem tokens_eq_cons (j : Json) : ∃ t ts, tokens j = t :: ts ∧ t ≠ .closeBracket := by
  cases j <;> exact ⟨_, _, by rw [tokens], by simp⟩

theorem membersDepth_le_iff {members : List (String × Json)} {n : Nat} :
    membersDepth members ≤ n ↔ ∀ e ∈ members, depth e.2 ≤ n := by
  induction members with
  | nil => simp [membersDepth]
  | cons e members ih =>
    obtain ⟨key, value⟩ := e
    rw [membersDepth, max_le_iff, ih, List.forall_mem_cons]

theorem mem_membersReals_iff {members : List (String × Json)} {x : Float} :
    x ∈ membersReals members ↔ ∃ e ∈ members, x ∈ reals e.2 := by
  induction members with
  | nil => simp [membersReals]
  | cons e members ih =>
    obtain ⟨key, value⟩ := e
    rw [membersReals, List.mem_append, ih, List.exists_mem_cons_iff]

theorem wellFormed_strings (ss : List String) : WellFormed (.array (ss.map .string)) := by
  refine .array fun j hj => ?_
  obtain ⟨s, -, rfl⟩ := List.mem_map.mp hj
  exact .string s

theorem itemsDepth_strings (ss : List String) : itemsDepth (ss.map Json.string) = 0 := by
  induction ss with
  | nil => rfl
  | cons s ss ih =>
    rw [List.map_cons, itemsDepth, ih]
    rfl

theorem itemsReals_strings (ss : List String) : itemsReals (ss.map Json.string) = [] := by
  induction ss with
  | nil => rfl
  | cons s ss ih =>
    rw [List.map_cons, itemsReals, ih]
    rfl

end ClaimMapping.Json
