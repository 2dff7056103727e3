import ClaimMapping.Proofs.Journal.Outcome
import ClaimMapping.Provider.Saml
import Mathlib

namespace ClaimMapping.Provider.Saml.State

open Journal (bind_eq_ok_iff)

variable {s s' : State} {tag : Xml.Element} {nm : String}

/-- A root, an assertion below one, an attribute in a statement of the first assertion, or anything
else. -/
theorem enter_cases (h : s.enter tag nm = .ok s') :
    (s.path = [] ∧ isRoot tag nm = true ∧ s' = { s with rootSeen := true }) ∨
    (s.path.length = 1 ∧ nm = "Assertion" ∧ s' = { s with assertions := s.assertions + 1 }) ∨
    ((s.inFirst ∧ s.path = statementPath ∧ nm = "Attribute") ∧
      ∃ p, begin tag = .ok p ∧ s' = { s with pending := some p }) ∨
    (¬ (s.path.length = 1 ∧ nm = "Assertion") ∧
      ¬ (s.inFirst ∧ s.path = statementPath ∧ nm = "Attribute") ∧ s' = s) := by
  unfold enter at h
  split_ifs at h with hempty hroot hassertion hattribute
  · cases h
    exact .inl ⟨List.isEmpty_iff.mp hempty, hroot, rfl⟩
  · cases h
    exact .inr (.inl ⟨hassertion.1, hassertion.2, rfl⟩)
  · obtain ⟨p, hp, h⟩ := bind_eq_ok_iff.mp h
    cases h
    exact .inr (.inr (.inl ⟨hattribute, p, hp, rfl⟩))
  · cases h
    exact .inr (.inr (.inr ⟨hassertion, hattribute, rfl⟩))

/-- A subject, a value of the pending attribute, the pending attribute itself, or anything else. -/
theorem leave_cases (s : State) (nm : String) (text : List Char) :
    ((nm = "NameID" ∧ s.path = subjectPath) ∧
      s.leave nm text = { s with subject := some (String.ofList text) }) ∨
    ((nm = "AttributeValue" ∧ s.path = attributePath) ∧
      s.leave nm text = { s with
        pending := s.pending.map fun p => { p with values := p.values ++ [String.ofList text] } }) ∨
    ((nm = "Attribute" ∧ s.path = statementPath) ∧ ∃ p, s.pending = some p ∧
      s.leave nm text = { s with
        pending := none, attributes := KeyMap.insert s.attributes p.name p.values }) ∨
    (¬ (nm = "AttributeValue" ∧ s.path = attributePath) ∧
      (nm = "Attribute" ∧ s.path = statementPath → s.pending = none) ∧ s.leave nm text = s) := by
  unfold leave
  split_ifs with hsubject hvalue hattribute
  · exact .inl ⟨hsubject, rfl⟩
  · exact .inr (.inl ⟨hvalue, rfl⟩)
  · cases hp : s.pending with
    | none => exact .inr (.inr (.inr ⟨hvalue, fun _ => rfl, rfl⟩))
    | some p => exact .inr (.inr (.inl ⟨hattribute, p, rfl, rfl⟩))
  · exact .inr (.inr (.inr ⟨hvalue, fun h => absurd h hattribute, rfl⟩))

end ClaimMapping.Provider.Saml.State
