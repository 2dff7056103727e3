import ClaimMapping.Proofs.Provider.Assertion
import ClaimMapping.Proofs.Provider.Registration
import ClaimMapping.Proofs.Provider.Token
import ClaimMapping.Proofs.Saml.Inert
import ClaimMapping.Proofs.Xml.Scope

namespace ClaimMapping.Provider

open Journal (bind_eq_ok_iff map_eq_ok_iff)

namespace Saml

namespace State

theorem rootSeen_leave (s : State) (name : String) (text : List Char) :
    (s.leave name text).rootSeen = s.rootSeen := by
  obtain ⟨-, h⟩ | ⟨-, h⟩ | ⟨-, p, -, h⟩ | ⟨-, -, h⟩ := leave_cases s name text <;> rw [h]

theorem rootSeen_finishElement (s : State) : s.finishElement.rootSeen = s.rootSeen := by
  unfold finishElement
  split
  · rfl
  · dsimp only
    split_ifs
    · exact rootSeen_leave _ _ _
    · rfl

theorem rootSeen_enter {s s' : State} {e : Xml.Element} {name : String}
    (h : s.enter e name = .ok s') (hroot : s'.rootSeen = true) :
    s.rootSeen = true ∨ e.target = some protocolNamespace := by
  obtain ⟨-, hresponse, rfl⟩ | ⟨-, -, rfl⟩ | ⟨-, p, -, rfl⟩ | ⟨-, -, rfl⟩ := enter_cases h
  · simp only [isRoot, Bool.and_eq_true, beq_iff_eq] at hresponse
    exact .inr hresponse.2
  · exact .inl hroot
  · exact .inl hroot
  · exact .inl hroot

/-- Only the start tag of an element in the protocol namespace makes a document a response. -/
theorem rootSeen_step {s s' : State} {event : Xml.Event} (h : s.step event = .ok s')
    (hroot : s'.rootSeen = true) :
    s.rootSeen = true ∨ ∃ e, event = .start e ∧ e.target = some protocolNamespace := by
  cases event with
  | start e =>
    obtain ⟨inner, henter, h⟩ := bind_eq_ok_iff.mp h
    cases h
    exact (rootSeen_enter henter hroot).imp_right fun ht => ⟨e, rfl, ht⟩
  | close =>
    cases h
    exact .inl (by rwa [rootSeen_finishElement] at hroot)
  | text content | characterData content | aside =>
    cases h
    exact .inl hroot

/-- A root that is seen has begun. -/
theorem rootSeen_run {events : List Xml.Event} {s s' : State} (h : s.run events = .ok s')
    (hroot : s'.rootSeen = true) :
    s.rootSeen = true ∨ ∃ e, .start e ∈ events ∧ e.target = some protocolNamespace := by
  induction events generalizing s with
  | nil =>
    cases h
    exact .inl hroot
  | cons event events ih =>
    rw [run, List.foldlM_cons] at h
    obtain ⟨inner, hstep, h⟩ := bind_eq_ok_iff.mp h
    obtain hinner | ⟨e, he, ht⟩ := ih h
    · obtain hs | ⟨e, rfl, ht⟩ := rootSeen_step hstep hinner
      · exact .inl hs
      · exact .inr ⟨e, List.mem_cons_self, ht⟩
    · exact .inr ⟨e, List.mem_cons_of_mem event he, ht⟩

end State

/-- What is read as an assertion has an element in the protocol namespace. -/
theorem exists_root_of_read {payload : String} {a : Assertion} (h : read payload = .ok a) :
    ∃ e, .start e ∈ (Xml.events payload.toList).events ∧ e.target = some protocolNamespace := by
  obtain ⟨s, hs, h⟩ := bind_eq_ok_iff.mp h
  have hroot : s.rootSeen = true := by
    split at h
    case h_1 => cases h
    case h_2 =>
      by_contra hseen
      rw [Bool.not_eq_true] at hseen
      simp [State.finish, hseen] at h
  obtain hfirst | hstart := State.rootSeen_run hs hroot
  · cases hfirst
  · exact hstart

theorem parse_outcome (payload : String) :
    (saml.parse payload).outcome = (read payload).map fun a => assertion a.toJson := rfl

/-- What is read as a response names the protocol behind its first `<`. -/
theorem exists_protocol_of_accepts {payload : String} (h : saml.Accepts payload) :
    ∃ before after, payload.toList = before ++ '<' :: after ∧ '<' ∉ before ∧
      protocolNamespace <:+: after := by
  obtain ⟨b, hb⟩ := h
  rw [parse_outcome] at hb
  obtain ⟨a, ha, -⟩ := map_eq_ok_iff.mp hb
  obtain ⟨e, he, ht⟩ := exists_root_of_read ha
  obtain ⟨before, after, hsplit, hbefore, hbound⟩ := Xml.isBoundIn_of_mem_events he ht
  refine ⟨before, after, hsplit, hbefore, ?_⟩
  obtain hxml | hxmlns | hwritten := hbound
  · exact absurd hxml (by decide)
  · exact absurd hxmlns (by decide)
  · exact hwritten

end Saml

namespace Oidc

/-- A token has no `<` in front of its second point, and no point behind it. -/
theorem IsToken.exists_parts {payload : String} {members : KeyMap Json}
    (h : IsToken payload members) :
    ∃ front back, payload.toList = front ++ back ∧ '<' ∉ front ∧ '.' ∉ back := by
  obtain ⟨header, claims, signature, hcompact, hpoint, -, -⟩ := h.exists_compact
  have hopen (text : String) : '<' ∉ encoded text := not_mem_encode (by decide) _
  obtain ⟨before, after, htext, hbefore, hafter⟩ :=
    Text.exists_append_trimBy_append Text.isBlank payload.toList
  rw [← String.toList_inj, Text.trim, String.toList_ofList, toList_compact] at hcompact
  rw [hcompact] at htext
  have hblank {c : Char} (hc : Text.isBlank c = false) : c ∉ before ∧ c ∉ after := by
    constructor
    · intro hmem
      simp [hbefore c hmem] at hc
    · intro hmem
      simp [hafter c hmem] at hc
  have hopenBlank := hblank (c := '<') (by decide)
  have hpointBlank := hblank (c := '.') (by decide)
  refine ⟨before ++ (encoded header ++ '.' :: (encoded claims ++ ['.'])),
    signature.toList ++ after, ?_, ?_, ?_⟩
  · simp [htext]
  · simp [hopen, hopenBlank]
  · simp [hpoint, hpointBlank]

theorem cases_of_accepts {payload : String} (h : oidc.Accepts payload) :
    (∃ members, IsToken payload members) ∨
      ∃ members, Json.read? payload = some (.object members) := by
  obtain ⟨b, hb⟩ := h
  obtain ⟨members, -, h⟩ := parse_eq_ok_iff.mp hb
  exact h.imp (fun h => ⟨members, h⟩) fun h => ⟨members, h⟩

end Oidc

/-- The text of an object in which the protocol is named behind some `<`. -/
structure HoldsResponse (payload : String) : Prop where
  isObject : ∃ members, Json.read? payload = some (.object members)
  namesProtocol : ∃ before after, payload.toList = before ++ '<' :: after ∧
    Saml.protocolNamespace <:+: after

theorem HoldsResponse.lt_length {payload : String} (h : HoldsResponse payload) :
    36 < payload.toList.length := by
  obtain ⟨before, after, hsplit, hprotocol⟩ := h.namesProtocol
  have hlength : 36 ≤ after.length := hprotocol.length_le
  rw [hsplit, List.length_append, List.length_cons]
  omega

/-- No token is a response. -/
theorem holdsResponse_of_accepts {payload : String} (ho : oidc.Accepts payload)
    (hs : saml.Accepts payload) : HoldsResponse payload := by
  obtain ⟨before, after, hsplit, hbefore, hprotocol⟩ := Saml.exists_protocol_of_accepts hs
  obtain ⟨members, htoken⟩ | hobject := Oidc.cases_of_accepts ho
  · obtain ⟨front, back, hparts, hopen, hpoint⟩ := htoken.exists_parts
    have hpointAfter : '.' ∈ '<' :: after := List.mem_cons_of_mem '<' (hprotocol.subset (by decide))
    rw [hparts] at hsplit
    -- The first `<` is behind both points, where the protocol would need another one.
    obtain ⟨more, hmore, hback⟩ | ⟨more, hmore, hback⟩ := List.append_eq_append_iff.mp hsplit
    · have hmem : '.' ∈ back := hback ▸ List.mem_append_right more hpointAfter
      exact absurd hmem hpoint
    · cases more with
      | nil =>
        rw [hback, List.nil_append] at hpointAfter
        exact absurd hpointAfter hpoint
      | cons c more =>
        obtain ⟨rfl, -⟩ := List.cons.inj hback
        exact absurd (by simp [hmore]) hopen
  · exact ⟨hobject, before, after, hsplit, hprotocol⟩

end ClaimMapping.Provider
