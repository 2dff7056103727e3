import ClaimMapping.Proofs.Expression.Binding
import ClaimMapping.Proofs.Journal.Notes
import ClaimMapping.Proofs.Provider.Assertion

namespace ClaimMapping.Provider

open Expression (Conforms Declaration)
open Journal (map_eq_ok_iff)

/-- The providers that come with the program, that of the conditions included. -/
def builtin : List Provider := [oidc, saml, condition]

theorem conforms_assertion {ds : List Declaration} (h : ∃ d ∈ ds, d.name = Attribute.assertionName)
    (members : KeyMap Json) : Conforms ds (assertion (.object members)) where
  declared x hx := by
    obtain rfl := List.mem_singleton.mp hx
    exact h
  objects d _ _ j hj := by
    obtain ⟨-, rfl⟩ := Prod.mk.inj (List.mem_singleton.mp (KeyMap.mem_of_get? hj))
    rfl

theorem Condition.conforms_of_read {payload : String} {b : Expression.Bindings}
    (h : read payload = .ok b) : Conforms declarations b where
  declared x hx := by
    unfold read at h
    split at h
    case h_1 => cases h
    case h_2 members hread =>
      cases h
      obtain ⟨e, he, rfl⟩ := List.mem_map.mp hx
      simpa using (List.mem_filter.mp he).2
    case h_3 => cases h
  objects d hd hs := by
    have hnone : ∀ d ∈ declarations, d.schema = none := by decide
    rw [hnone d hd] at hs
    cases hs

theorem isObject_of_standard {p : Provider} (hp : p ∈ [oidc, saml]) {payload : String}
    {b : Expression.Bindings} (h : (p.parse payload).outcome = .ok b) :
    ∃ members, b = assertion (.object members) := by
  simp only [List.mem_cons, List.not_mem_nil, or_false] at hp
  obtain rfl | rfl := hp
  · obtain ⟨members, hb, -⟩ := Oidc.isAssertion_of_parse h
    exact ⟨members, hb⟩
  · obtain ⟨members, hb, -⟩ := Saml.isAssertion_of_parse h
    exact ⟨members, hb⟩

theorem mem_builtin_iff {p : Provider} : p ∈ builtin ↔ p ∈ [oidc, saml] ∨ p = condition := by
  simp [builtin, or_assoc]

/-- Providers keep to their declarations: whatever a payload binds, the environment of the provider
accepts. -/
theorem conforms_of_builtin {p : Provider} (hp : p ∈ builtin) {payload : String}
    {b : Expression.Bindings} (h : (p.parse payload).outcome = .ok b) :
    Conforms p.declarations b := by
  obtain hp | rfl := mem_builtin_iff.mp hp
  · obtain ⟨members, rfl⟩ := isObject_of_standard hp h
    refine conforms_assertion ?_ members
    simp only [List.mem_cons, List.not_mem_nil, or_false] at hp
    obtain rfl | rfl := hp
    · exact ⟨_, List.mem_cons_self, rfl⟩
    · exact ⟨_, List.mem_cons_self, rfl⟩
  · exact Condition.conforms_of_read h

/-- Of the payloads only a reading as a token leaves a note. -/
theorem notes_of_builtin {p : Provider} (hp : p ∈ builtin) {payload : String} {n : Journal.Note}
    (h : n ∈ (p.parse payload).notes) : ∃ d, n = .notToken d := by
  simp only [builtin, List.mem_cons, List.not_mem_nil, or_false] at hp
  obtain rfl | rfl | rfl := hp
  · obtain h | ⟨members, -, h⟩ := Journal.Traced.mem_notes_bind_iff.mp h
    · unfold Oidc.claims at h
      split at h
      case h_1 => cases h
      case h_2 d _ =>
        obtain h | ⟨-, -, h⟩ := Journal.Traced.mem_notes_bind_iff.mp h
        · exact ⟨d, List.mem_singleton.mp h⟩
        · cases h
    · cases h
  · cases h
  · cases h

end ClaimMapping.Provider
