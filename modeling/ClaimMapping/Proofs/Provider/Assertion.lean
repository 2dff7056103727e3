import ClaimMapping.Proofs.Journal.Outcome
import ClaimMapping.Proofs.Json.Reading
import ClaimMapping.Proofs.Provider.Grammar
import ClaimMapping.Proofs.Saml.Step
import ClaimMapping.Provider.Registry

namespace ClaimMapping.Provider

open Json (WellFormed depth)
open Journal (bind_eq_ok_iff map_eq_ok_iff)

/-- Bindings of an assertion that is an object and nests at most `limit` deep. -/
def IsAssertion (limit : Nat) (b : Expression.Bindings) : Prop :=
  ∃ members, b = assertion (.object members) ∧ WellFormed (.object members) ∧
    depth (.object members) ≤ limit

namespace Oidc

/-- Claims come from a JSON text, and nest as deep as one may. -/
theorem isAssertion_of_parse {payload : String} {b : Expression.Bindings}
    (h : (parse payload).outcome = .ok b) : IsAssertion Json.maxDepth b := by
  obtain ⟨members, hb, hpayload⟩ := parse_eq_ok_iff.mp h
  have htext : ∃ text, Json.read? text = some (.object members) := by
    obtain htoken | hobject := hpayload
    · obtain ⟨header, claims, signature, -, -, hclaims⟩ := htoken.segments
      exact ⟨claims, hclaims⟩
    · exact ⟨payload, hobject⟩
  obtain ⟨text, hread⟩ := htext
  obtain ⟨hw, hd⟩ := Json.read?_sound hread
  exact ⟨members, hb, hw, hd⟩

end Oidc

namespace Saml

namespace State

theorem attributes_of_enter {s s' : State} {e : Xml.Element} {name : String}
    (h : s.enter e name = .ok s') : s'.attributes = s.attributes := by
  obtain ⟨-, -, rfl⟩ | ⟨-, -, rfl⟩ | ⟨-, p, -, rfl⟩ | ⟨-, -, rfl⟩ := enter_cases h <;> rfl

theorem ordered_leave {s : State} (h : KeyMap.Ordered s.attributes) (name : String)
    (text : List Char) : KeyMap.Ordered (s.leave name text).attributes := by
  obtain ⟨-, hs⟩ | ⟨-, hs⟩ | ⟨-, p, -, hs⟩ | ⟨-, -, hs⟩ := leave_cases s name text <;> rw [hs]
  · exact h
  · exact h
  · exact h.insert _ _
  · exact h

theorem ordered_finishElement {s : State} (h : KeyMap.Ordered s.attributes) :
    KeyMap.Ordered s.finishElement.attributes := by
  unfold finishElement
  split
  · exact h
  · dsimp only
    split_ifs
    · have hclosed : KeyMap.Ordered
          ({ s with path := s.path.dropLast, text := [] } : State).attributes := h
      exact ordered_leave hclosed _ _
    · exact h

/-- One event leaves the attributes in order. -/
theorem ordered_step {s s' : State} (h : KeyMap.Ordered s.attributes) {event : Xml.Event}
    (hs : s.step event = .ok s') : KeyMap.Ordered s'.attributes := by
  cases event with
  | start e =>
    obtain ⟨s'', henter, hs⟩ := bind_eq_ok_iff.mp hs
    cases hs
    rw [← attributes_of_enter henter] at h
    exact h
  | close =>
    cases hs
    exact ordered_finishElement h
  | text content =>
    cases hs
    exact h
  | characterData content =>
    cases hs
    exact h
  | aside =>
    cases hs
    exact h

/-- The attributes of an assertion stay in the order of a map through all events of a document. -/
theorem ordered_run {events : List Xml.Event} {s s' : State} (h : KeyMap.Ordered s.attributes)
    (hs : events.foldlM step s = .ok s') : KeyMap.Ordered s'.attributes := by
  induction events generalizing s with
  | nil =>
    cases hs
    exact h
  | cons event events ih =>
    rw [List.foldlM_cons] at hs
    obtain ⟨s'', hstep, hs⟩ := bind_eq_ok_iff.mp hs
    exact ih (ordered_step h hstep) hs

end State

theorem ordered_attributes_of_readStream {stream : Xml.Stream} {a : Assertion}
    (h : readStream stream = .ok a) : KeyMap.Ordered a.attributes := by
  obtain ⟨s, hs, h⟩ := bind_eq_ok_iff.mp h
  have ho := State.ordered_run KeyMap.ordered_nil hs
  split at h
  case h_1 => cases h
  case h_2 =>
    unfold State.finish at h
    split_ifs at h
    split at h
    case h_1 =>
      cases h
      exact ho
    case h_2 => cases h

/-- An assertion is written as one object with a subject and attributes. -/
theorem isAssertion_toJson {a : Assertion} (h : KeyMap.Ordered a.attributes) :
    IsAssertion 3 (assertion a.toJson) := by
  have hattributes : WellFormed
      (.object (KeyMap.mapValues (fun vs => Json.array (vs.map .string)) a.attributes)) := by
    refine .object (h.mapValues _) fun e he => ?_
    obtain ⟨e', -, rfl⟩ := List.mem_map.mp he
    exact Json.wellFormed_strings e'.2
  have hdepth : Json.membersDepth
      (KeyMap.mapValues (fun vs => Json.array (vs.map .string)) a.attributes) ≤ 1 := by
    refine Json.membersDepth_le_iff.mpr fun e he => ?_
    obtain ⟨e', -, rfl⟩ := List.mem_map.mp he
    rw [depth, Json.itemsDepth_strings]
  have hkeys : ["attributes", "subject"].Pairwise (· < ·) := by decide
  refine ⟨_, rfl, .object hkeys ?_, ?_⟩
  · exact List.forall_mem_cons.mpr
      ⟨hattributes, List.forall_mem_singleton.mpr (.string a.subject)⟩
  · rw [depth]
    refine Nat.succ_le_succ (Json.membersDepth_le_iff.mpr ?_)
    refine List.forall_mem_cons.mpr ⟨?_, List.forall_mem_singleton.mpr (Nat.zero_le 2)⟩
    exact Nat.succ_le_succ hdepth

/-- A subject and attributes nest three deep. -/
theorem isAssertion_of_parse {payload : String} {b : Expression.Bindings}
    (h : parse payload = .ok b) : IsAssertion 3 b := by
  obtain ⟨a, ha, rfl⟩ := map_eq_ok_iff.mp h
  exact isAssertion_toJson (ordered_attributes_of_readStream ha)

end Saml
end ClaimMapping.Provider
