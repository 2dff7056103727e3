import ClaimMapping.Proofs.Attribute.Nesting
import ClaimMapping.Proofs.Json.Indented

namespace ClaimMapping.Attribute

open Json (WellFormed depth reals)

theorem mapM_string? (items : List String) :
    (items.map Json.string).mapM Json.string? = some items := by
  induction items with
  | nil => rfl
  | cons s items ih =>
    rw [List.map_cons, List.mapM_cons, ih]
    rfl

theorem Value.ofJson?_toJson (v : Value) : Value.ofJson? v.toJson = some v := by
  cases v with
  | text s => rfl
  | list items => rw [Value.toJson, Value.ofJson?, mapM_string?, Option.map_some]

namespace Derived

variable {d : Derived}

/-- Attributes that are written as JSON are read as the same attributes. -/
theorem ofJson?_toJson (d : Derived) : Derived.ofJson? d.toJson = some d := by
  have hmembers : (KeyMap.mapValues Value.toJson d).mapM
      (fun e => (Value.ofJson? e.2).map fun v => (e.1, v)) = some d := by
    induction d with
    | nil => rfl
    | cons e d ih =>
      obtain ⟨key, value⟩ := e
      rw [KeyMap.mapValues] at ih ⊢
      rw [List.map_cons, List.mapM_cons, ih, Value.ofJson?_toJson]
      rfl
  exact hmembers

theorem wellFormed_toJson (h : KeyMap.Ordered d) : WellFormed d.toJson := by
  refine .object (h.mapValues _) fun e he => ?_
  obtain ⟨a, -, rfl⟩ := List.mem_map.mp he
  exact Attribute.wellFormed_toJson a.2

theorem depth_toJson_le (d : Derived) : depth d.toJson ≤ 2 := by
  have hmembers : Json.membersDepth (KeyMap.mapValues Value.toJson d) ≤ 1 := by
    refine Json.membersDepth_le_iff.mpr fun e he => ?_
    obtain ⟨a, -, rfl⟩ := List.mem_map.mp he
    exact Attribute.depth_toJson_le a.2
  rw [toJson, depth]
  exact Nat.succ_le_succ hmembers

theorem reals_toJson (d : Derived) : reals d.toJson = [] := by
  rw [toJson, reals]
  refine List.eq_nil_iff_forall_not_mem.mpr fun x hx => ?_
  obtain ⟨e, he, hx⟩ := Json.mem_membersReals_iff.mp hx
  obtain ⟨a, -, rfl⟩ := List.mem_map.mp he
  rw [Attribute.reals_toJson] at hx
  cases hx

/-- Attributes with one line for each are read again as the attributes they are. -/
theorem read?_indented (h : KeyMap.Ordered d) :
    Json.read? (Json.indented d.toJson ++ "\n") = some d.toJson := by
  have hdepth : depth d.toJson ≤ Json.maxDepth := (depth_toJson_le d).trans (by decide)
  have hreread : Json.reread d.toJson = d.toJson := by
    refine Json.reread_of_returns d.toJson fun x hx => ?_
    rw [reals_toJson] at hx
    cases hx
  rw [Json.read?_indented (wellFormed_toJson h), if_pos hdepth, hreread]

end Derived
end ClaimMapping.Attribute
