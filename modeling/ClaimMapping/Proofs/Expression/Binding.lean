import ClaimMapping.Expression.Environment
import ClaimMapping.Proofs.Journal.Outcome
import ClaimMapping.Proofs.KeyMap.Lookup

namespace ClaimMapping.Expression

open Journal (bind_eq_ok_iff mapError_eq_error_iff)

/-- No binding is undeclared, and a variable with a schema holds an object if it is bound. -/
structure Conforms (ds : List Declaration) (b : Bindings) : Prop where
  declared : ∀ x ∈ KeyMap.keys b, ∃ d ∈ ds, d.name = x
  objects : ∀ d ∈ ds, d.schema.isSome → ∀ j, KeyMap.get? b d.name = some j → j.isObject

namespace Environment

/-- A declared variable has a value unless its schema asks for an object and something else is
bound. -/
theorem exists_valueOf_iff {b : Bindings} {d : Declaration} :
    (∃ v, valueOf b d = .ok v) ↔
      (d.schema.isSome → ∀ j, KeyMap.get? b d.name = some j → j.isObject) := by
  unfold valueOf
  cases KeyMap.get? b d.name with
  | none => simp
  | some j =>
    cases d.schema with
    | none => simp
    | some schema => cases hj : j.isObject <;> simp [hj]

theorem exists_bindAll_iff {b : Bindings} {ds : List Declaration} {scope : Scope} :
    (∃ s, bindAll b ds scope = .ok s) ↔ ∀ d ∈ ds, ∃ v, valueOf b d = .ok v := by
  induction ds generalizing scope with
  | nil => exact iff_of_true ⟨scope, rfl⟩ (by simp)
  | cons d ds ih =>
    rw [List.forall_mem_cons]
    constructor
    · intro h
      obtain ⟨s, hs⟩ := h
      obtain ⟨v, hv, hs⟩ := bind_eq_ok_iff.mp hs
      exact ⟨⟨v, hv⟩, ih.mp ⟨s, hs⟩⟩
    · intro h
      obtain ⟨⟨v, hv⟩, hds⟩ := h
      obtain ⟨s, hs⟩ := ih.mpr hds
      exact ⟨s, bind_eq_ok_iff.mpr ⟨v, hv, hs⟩⟩

theorem find?_not_declares_eq_none_iff {env : Environment} {b : Bindings} :
    (KeyMap.keys b).find? (fun name => !env.declares name) = none ↔
      ∀ x ∈ KeyMap.keys b, ∃ d ∈ env.declarations, d.name = x := by
  simp [declares]

/-- The bindings that make a scope, whatever the library. -/
theorem exists_scope_iff {env : Environment} {b : Bindings} :
    (∃ s, env.scope b = .ok s) ↔ Conforms env.declarations b := by
  unfold scope
  cases h : (KeyMap.keys b).find? (fun name => !env.declares name) with
  | some name =>
    refine iff_of_false (fun ⟨s, hs⟩ => by cases hs) fun hc => ?_
    rw [find?_not_declares_eq_none_iff.mpr hc.declared] at h
    cases h
  | none =>
    have hdeclared := find?_not_declares_eq_none_iff.mp h
    dsimp only
    rw [exists_bindAll_iff]
    simp only [exists_valueOf_iff]
    exact ⟨fun ho => ⟨hdeclared, ho⟩, fun hc => hc.objects⟩

/-- Where the bindings conform, an expression can fail only by its evaluation. -/
theorem evaluate_ne_bind {env : Environment} {b : Bindings} (h : Conforms env.declarations b)
    (e : Expr) (defect : BindError) : env.evaluate e b ≠ .error (.error (.bind defect)) := by
  obtain ⟨s, hs⟩ := exists_scope_iff.mpr h
  rw [evaluate, hs]
  intro he
  obtain ⟨failure, -, hf⟩ := mapError_eq_error_iff.mp he
  cases failure <;> cases hf

end Environment
end ClaimMapping.Expression
