import ClaimMapping.Proofs.Saml.Level

namespace ClaimMapping.Provider.Saml

open Journal (ok_bind bind_eq_ok_iff map_eq_ok_iff mapM_eq_ok_iff)

namespace State

/-- A state between the children of the root. -/
def below (assertions : Nat) (text : List Char) (subject : Option String)
    (attributes : KeyMap (List String)) : State :=
  ⟨true, ["Response"], assertions, text, subject, none, attributes⟩

variable {assertions : Nat} {text : List Char} {subject : Option String}
  {attributes : KeyMap (List String)} {tag : Xml.Element}

theorem enter_assertion (h : name tag = "Assertion") :
    (below assertions text subject attributes).enter tag (name tag) =
      .ok (below (assertions + 1) text subject attributes) := by
  rw [h]
  rfl

/-- The first assertion gives its subject and its attributes, or the error of its first attribute
without a name. -/
theorem run_first (h : name tag = "Assertion") (children : List Node) :
    (below 0 text none []).run (events (.element tag children)) =
      (attributesIn children).mapM entryOf >>= fun entries =>
        .ok (below 1 [] ((nameIds children).getLast?.map fun e => content e.2)
          (KeyMap.ofList entries)) := by
  rw [run_element, start_eq, enter_assertion h, ok_bind, ok_bind, h]
  change (within assertionPath [] none none []).run _ >>= _ = _
  rw [run_assertion, bind_assoc]
  apply bind_congr
  intro entries
  rw [ok_bind, Option.or_none]
  rfl

/-- Only the first assertion counts. -/
theorem run_later (h : name tag = "Assertion") (children : List Node) :
    (below (assertions + 1) text subject attributes).run (events (.element tag children)) =
      .ok (below (assertions + 2) [] subject attributes) := by
  rw [run_leaf (enter_assertion h)]
  · rfl
  · refine ⟨Nat.le_refl 2, fun hin => ?_⟩
    simp [inFirst, opened, below] at hin

theorem run_other (h : name tag ≠ "Assertion") (children : List Node) :
    (below assertions text subject attributes).run (events (.element tag children)) =
      .ok (below assertions [] subject attributes) := by
  have he : (below assertions text subject attributes).enter tag (name tag) =
      .ok (below assertions text subject attributes) := by
    have hone : ¬ (["Response"].length = 1 ∧ name tag = "Assertion") := fun hp => h hp.2
    have hstatement : ¬ ((below assertions text subject attributes).inFirst ∧
        ["Response"] = statementPath ∧ name tag = "Attribute") := by simp [statementPath]
    exact (if_neg Bool.false_ne_true).trans ((if_neg hone).trans (if_neg hstatement))
  have hnot : (below assertions text subject attributes).inFirst = false := by
    simp [inFirst, below]
  rw [run_leaf he, hnot]
  · rfl
  · refine ⟨Nat.le_refl 2, fun hin => ?_⟩
    simp [inFirst, opened, below, h] at hin

/-- What the children of the root say together. -/
def ofChildren (ns : List Node) : Except ParseError State :=
  match named "Assertion" ns with
  | [] => .ok (below 0 (trailing ns) none [])
  | first :: others => (attributesIn first.2).mapM entryOf >>= fun entries =>
    .ok (below (others.length + 1) (trailing ns)
      ((nameIds first.2).getLast?.map fun e => content e.2) (KeyMap.ofList entries))

theorem run_response (ns : List Node) :
    (below 0 [] none []).run (eventsOf ns) = ofChildren ns := by
  refine run_children ofChildren rfl (fun ns n hn => ?plain) (fun ns tag children => ?element) ns
  case plain =>
    rw [ofChildren, ofChildren, named_append, named_plain _ hn, List.append_nil,
      trailing_concat_plain ns hn]
    cases named "Assertion" ns with
    | nil => rfl
    | cons first others =>
      dsimp only
      rw [bind_assoc]
      rfl
  case element =>
    rw [ofChildren, ofChildren, named_append, named_element, trailing_concat_element]
    by_cases hnm : name tag = "Assertion"
    · rw [if_pos hnm]
      cases named "Assertion" ns with
      | nil => rw [ok_bind, run_first hnm]; rfl
      | cons first others =>
        dsimp only [List.cons_append]
        rw [bind_assoc]
        simp only [ok_bind, run_later hnm, List.length_append, List.length_singleton]
    · rw [if_neg hnm, List.append_nil]
      cases named "Assertion" ns with
      | nil => rw [ok_bind, run_other hnm]
      | cons first others =>
        dsimp only
        rw [bind_assoc]
        simp only [ok_bind, run_other hnm]

theorem run_plains (s : State) {ns : List Node} (h : ∀ n ∈ ns, isElement n = false) :
    s.run (eventsOf ns) = .ok { s with text := s.text ++ ns.flatMap characters } := by
  induction ns generalizing s with
  | nil =>
    rw [List.flatMap_nil, List.append_nil]
    rfl
  | cons n ns ih =>
    obtain ⟨hn, hns⟩ := List.forall_mem_cons.mp h
    rw [eventsOf, run_append, run_plain s hn, ok_bind, ih _ hns, List.flatMap_cons,
      List.append_assoc]

/-- At the top only a response of the protocol may begin. -/
theorem enter_root (s : State) (h : s.path = []) (tag : Xml.Element) :
    s.enter tag (name tag) =
      if isRoot tag (name tag) then .ok { s with rootSeen := true }
      else .error (.unexpectedRoot (name tag)) := by
  rw [enter, h]
  rfl

/-- What follows the root is only text, which nothing reads. -/
theorem finish_below (text : List Char) (after : List Node)
    (h : ∀ n ∈ after, isElement n = false) :
    (below assertions text subject attributes).finishElement.run (eventsOf after) >>= finish =
      if assertions = 0 then .error (.missingElement "Assertion")
      else match subject with
        | some subject => .ok ⟨subject, attributes⟩
        | none => .error (.missingElement "NameID") := by
  have hclosed : (below assertions text subject attributes).finishElement =
      ⟨true, [], assertions, [], subject, none, attributes⟩ := by
    simp [finishElement, below, inFirst]
  rw [hclosed, run_plains _ h, ok_bind]
  rfl

end State

/-- Reading, with the errors that it gives. -/
theorem readStream_events (d : Document) :
    readStream ⟨d.events, none⟩ =
      if State.isRoot d.tag (name d.tag) then
        match named "Assertion" d.children with
        | [] => .error (.missingElement "Assertion")
        | first :: _ => (attributesIn first.2).mapM entryOf >>= fun entries =>
          match (nameIds first.2).getLast? with
          | none => .error (.missingElement "NameID")
          | some id => .ok ⟨content id.2, KeyMap.ofList entries⟩
      else .error (.unexpectedRoot (name d.tag)) := by
  have hread : readStream ⟨d.events, none⟩ = State.initial.run d.events >>= State.finish := rfl
  rw [hread, Document.events, State.run_append, State.run_append,
    State.run_plains _ d.before_plain, ok_bind, State.run_element, State.start_eq,
    State.enter_root _ rfl]
  by_cases hroot : State.isRoot d.tag (name d.tag) = true
  · have hname : name d.tag = "Response" := by
      simp only [State.isRoot, Bool.and_eq_true, beq_iff_eq] at hroot
      exact hroot.1
    rw [if_pos hroot, if_pos hroot, ok_bind, ok_bind, hname]
    change (((State.below 0 [] none []).run (eventsOf d.children) >>= _) >>= _) >>= _ = _
    rw [State.run_response, State.ofChildren]
    cases named "Assertion" d.children with
    | nil => exact State.finish_below _ _ d.after_plain
    | cons first others =>
      dsimp only
      rw [bind_assoc, bind_assoc, bind_assoc]
      apply bind_congr
      intro entries
      rw [ok_bind, ok_bind, State.finish_below _ _ d.after_plain,
        if_neg (Nat.succ_ne_zero _)]
      cases (nameIds first.2).getLast? <;> rfl
  · rw [if_neg hroot, if_neg hroot]
    rfl

theorem entryOf_eq_ok_iff {e : Element} {entry : String × List String} :
    entryOf e = .ok entry ↔ IsCalled e.1 entry.1 ∧ entry.2 = valuesIn e.2 := by
  rw [entryOf, State.begin, IsCalled]
  cases (Xml.attributes e.1.rest).value? "Name".toList with
  | error defect => simp [Except.map]
  | ok value => simp [Except.map, Prod.ext_iff, eq_comm]

/-- Reading the events of a document succeeds exactly when its tree describes an assertion, and
gives that assertion. -/
theorem readStream_eq_ok_iff (d : Document) (a : Assertion) :
    readStream ⟨d.events, none⟩ = .ok a ↔ Describes d a := by
  have hroot : State.isRoot d.tag (name d.tag) = true ↔
      name d.tag = "Response" ∧ d.tag.target = some protocolNamespace := by
    simp only [State.isRoot, Bool.and_eq_true, beq_iff_eq]
  rw [readStream_events]
  constructor
  · intro h
    split_ifs at h with hr
    obtain ⟨is_response, is_protocol⟩ := hroot.mp hr
    cases hf : named "Assertion" d.children with
    | nil =>
      rw [hf] at h
      cases h
    | cons first others =>
      rw [hf] at h
      obtain ⟨entries, he, h⟩ := bind_eq_ok_iff.mp h
      cases hl : (nameIds first.2).getLast? with
      | none =>
        rw [hl] at h
        cases h
      | some id =>
        rw [hl] at h
        cases h
        refine .intro first id others entries is_response is_protocol hf hl rfl ?_ rfl
        exact (mapM_eq_ok_iff.mp he).imp fun _ _ => entryOf_eq_ok_iff.mp
  · intro h
    obtain ⟨first, id, others, entries, is_response, is_protocol, hf, hl, hs, hc, ha⟩ := h
    have he : (attributesIn first.2).mapM entryOf = .ok entries :=
      mapM_eq_ok_iff.mpr (hc.imp fun _ _ => entryOf_eq_ok_iff.mpr)
    rw [if_pos (hroot.mpr ⟨is_response, is_protocol⟩), hf]
    dsimp only
    rw [he, ok_bind, hl]
    dsimp only
    rw [← hs, ← ha]

end ClaimMapping.Provider.Saml
