import ClaimMapping.Proofs.Saml.Inert

namespace ClaimMapping.Provider.Saml

open Journal (ok_bind error_bind)

/-- The entry of an attribute, unless its name cannot be read. -/
def entryOf (e : Element) : Except ParseError (String × List String) :=
  (State.begin e.1).map fun p => (p.name, valuesIn e.2)

namespace State

/-- A state inside the first assertion. -/
def within (path : List String) (text : List Char) (subject : Option String)
    (pending : Option Pending) (attributes : KeyMap (List String)) : State :=
  ⟨true, path, 1, text, subject, pending, attributes⟩

variable {path : List String} {text : List Char} {subject : Option String}
  {pending : Option Pending} {attributes : KeyMap (List String)}

theorem inFirst_within {rest : List String} (hp : path = "Response" :: "Assertion" :: rest) :
    (within path text subject pending attributes).inFirst = true := by
  rw [inFirst, within, hp]
  rfl

/-- What the children of an element do is known from what the last of them does. -/
theorem run_children {s : State} (result : List Node → Except ParseError State)
    (nil : result [] = .ok s)
    (plain : ∀ ns n, isElement n = false → result (ns ++ [n]) =
      result ns >>= fun s => .ok { s with text := s.text ++ characters n })
    (element : ∀ ns tag children, result (ns ++ [.element tag children]) =
      result ns >>= fun s => s.run (events (.element tag children))) (ns : List Node) :
    s.run (eventsOf ns) = result ns := by
  induction ns using List.reverseRecOn with
  | nil => exact nil.symm
  | append_singleton ns n ih =>
    rw [run_eventsOf_concat, ih]
    by_cases hn : isElement n = true
    · cases n with
      | element tag children => rw [element]
      | _ => cases hn
    · rw [Bool.not_eq_true] at hn
      rw [plain ns n hn]
      exact congrArg (result ns >>= ·) (funext fun s => run_plain s hn)

/-- A child that no element of interest is in. -/
theorem run_within (path : List String) {rest : List String}
    (hp : path = "Response" :: "Assertion" :: rest) {tag : Xml.Element}
    (hs : ¬ path ++ [name tag] <+: subjectPath) (ha : ¬ path ++ [name tag] <+: attributePath)
    (children : List Node) :
    (within path text subject pending attributes).run (events (.element tag children)) =
      .ok ((within path [] subject pending attributes).leave (name tag) (trailing children)) := by
  have hlength : 2 ≤ path.length := by
    rw [hp, List.length_cons, List.length_cons]
    omega
  have he : (within path text subject pending attributes).enter tag (name tag) =
      .ok (within path text subject pending attributes) := by
    refine enter_of_deep hlength fun h => ha ?_
    have hpath : path = statementPath := h.2.1
    rw [hpath, h.2.2]
    exact List.prefix_rfl
  rw [run_leaf he, inFirst_within hp]
  · rfl
  · refine ⟨?_, fun _ => ⟨hs, ha⟩⟩
    change 2 ≤ (path ++ [name tag]).length
    rw [List.length_append]
    omega

theorem leave_other {s : State} {nm : String} {text : List Char}
    (hs : ¬ (nm = "NameID" ∧ s.path = subjectPath))
    (ha : ¬ (nm = "AttributeValue" ∧ s.path = attributePath))
    (hn : ¬ (nm = "Attribute" ∧ s.path = statementPath)) : s.leave nm text = s := by
  rw [leave, if_neg hs, if_neg ha, if_neg hn]

theorem leave_nameId (last : List Char) :
    (within subjectPath text subject pending attributes).leave "NameID" last =
      within subjectPath text (some (String.ofList last)) pending attributes := rfl

theorem leave_attributeValue (called : String) (values : List String) (last : List Char) :
    (within attributePath text subject (some ⟨called, values⟩) attributes).leave "AttributeValue"
        last =
      within attributePath text subject (some ⟨called, values ++ [String.ofList last]⟩)
        attributes := rfl

theorem leave_attribute (called : String) (values : List String) (last : List Char) :
    (within statementPath text subject (some ⟨called, values⟩) attributes).leave "Attribute" last =
      within statementPath text subject none (KeyMap.insert attributes called values) := rfl

/-- The content of the last `NameID` in a subject is kept. -/
theorem run_subject (ns : List Node) :
    (within subjectPath [] subject pending attributes).run (eventsOf ns) =
      .ok (within subjectPath (trailing ns)
        (((named "NameID" ns).getLast?.map fun e => content e.2).or subject) pending
        attributes) := by
  refine (run_children (fun ns => .ok (within subjectPath (trailing ns)
    (((named "NameID" ns).getLast?.map fun e => content e.2).or subject) pending attributes))
    rfl (fun ns n hn => ?plain) (fun ns tag children => ?element) ns :)
  case plain =>
    rw [ok_bind, trailing_concat_plain ns hn, named_append, named_plain _ hn, List.append_nil]
    rfl
  case element =>
    rw [ok_bind, run_within subjectPath rfl (by simp [subjectPath])
      (by simp [subjectPath, attributePath]), trailing_concat_element, named_append, named_element]
    by_cases hnm : name tag = "NameID"
    · rw [if_pos hnm, hnm, leave_nameId, List.getLast?_concat]
      rfl
    · rw [if_neg hnm, List.append_nil, leave_other]
      · exact fun h => hnm h.1
      · simp [within, subjectPath, attributePath]
      · simp [within, subjectPath, statementPath]

/-- The contents of the values of an attribute are added to it. -/
theorem run_attribute (called : String) (values : List String) (ns : List Node) :
    (within attributePath [] subject (some ⟨called, values⟩) attributes).run (eventsOf ns) =
      .ok (within attributePath (trailing ns) subject (some ⟨called, values ++ valuesIn ns⟩)
        attributes) := by
  refine (run_children (fun ns => .ok (within attributePath (trailing ns) subject
    (some ⟨called, values ++ valuesIn ns⟩) attributes))
    ?nil (fun ns n hn => ?plain) (fun ns tag children => ?element) ns :)
  case nil =>
    rw [valuesIn, named_nil, List.map_nil, List.append_nil]
    rfl
  case plain =>
    rw [ok_bind, trailing_concat_plain ns hn, valuesIn_append, valuesIn, valuesIn,
      named_plain _ hn, List.map_nil, List.append_nil]
    rfl
  case element =>
    rw [ok_bind, run_within attributePath rfl (by simp [subjectPath, attributePath])
      (by simp [attributePath]), trailing_concat_element, valuesIn_append]
    by_cases hnm : name tag = "AttributeValue"
    · have hv : valuesIn [.element tag children] = [content children] := by
        rw [valuesIn, named_element, if_pos hnm]
        rfl
      rw [hnm, leave_attributeValue, hv, ← List.append_assoc]
      rfl
    · have hv : valuesIn [.element tag children] = [] := by
        rw [valuesIn, named_element, if_neg hnm]
        rfl
      rw [hv, List.append_nil, leave_other]
      · simp [within, subjectPath, attributePath]
      · exact fun h => hnm h.1
      · simp [within, attributePath, statementPath]

/-- Within the first assertion only attributes do anything at their start. -/
theorem start_within (path : List String) {rest : List String}
    (hp : path = "Response" :: "Assertion" :: rest) {tag : Xml.Element}
    (hs : ¬ (path = statementPath ∧ name tag = "Attribute")) :
    (within path text subject pending attributes).start tag =
      .ok (within (path ++ [name tag]) [] subject pending attributes) := by
  have hlength : 2 ≤ path.length := by
    rw [hp, List.length_cons, List.length_cons]
    omega
  rw [start_eq, enter_of_deep hlength fun h => hs h.2, ok_bind]
  rfl

theorem start_attribute {tag : Xml.Element} (h : name tag = "Attribute") :
    (within statementPath text subject pending attributes).start tag =
      begin tag >>= fun p => .ok (within attributePath [] subject (some p) attributes) := by
  rw [start_eq, h]
  cases hb : begin tag with
  | error e =>
    change (begin tag >>= _) >>= _ = _
    rw [hb]
    rfl
  | ok p =>
    change (begin tag >>= _) >>= _ = _
    rw [hb]
    rfl

/-- The end of an element within the first assertion is judged by its name and its text. -/
theorem finish_within (path : List String) {rest : List String}
    (hp : path = "Response" :: "Assertion" :: rest) (nm : String) :
    (within (path ++ [nm]) text subject pending attributes).finishElement =
      (within path [] subject pending attributes).leave nm text := by
  rw [finishElement_of_path path nm rfl]
  exact if_pos (inFirst_within hp)

theorem begin_eq_ok {tag : Xml.Element} {p : Pending} (h : begin tag = .ok p) :
    p = ⟨p.name, []⟩ := by
  unfold begin at h
  split at h
  · cases h
    rfl
  · cases h

/-- The attributes of a statement are set one after the other. -/
theorem run_statement (ns : List Node) :
    (within statementPath [] subject none attributes).run (eventsOf ns) =
      (named "Attribute" ns).mapM entryOf >>= fun entries =>
        .ok (within statementPath (trailing ns) subject none
          (KeyMap.insertAll attributes entries)) := by
  refine (run_children (fun ns => (named "Attribute" ns).mapM entryOf >>= fun entries =>
    .ok (within statementPath (trailing ns) subject none (KeyMap.insertAll attributes entries)))
    ?nil (fun ns n hn => ?plain) (fun ns tag children => ?element) ns :)
  case nil =>
    rw [named_nil, List.mapM_nil]
    rfl
  case plain =>
    rw [named_append, named_plain _ hn, List.append_nil, trailing_concat_plain ns hn, bind_assoc]
    rfl
  case element =>
    rw [named_append, named_element, trailing_concat_element, bind_assoc]
    by_cases hnm : name tag = "Attribute"
    · rw [if_pos hnm, List.mapM_append, bind_assoc]
      apply bind_congr
      intro entries
      rw [ok_bind, run_element, start_attribute hnm, bind_assoc, List.mapM_cons, List.mapM_nil]
      simp only [entryOf]
      cases hb : begin tag with
      | error e => rfl
      | ok p =>
        obtain ⟨called, values⟩ := p
        cases begin_eq_ok hb
        rw [ok_bind, ok_bind, run_attribute, ok_bind]
        change _ = Except.ok (within (statementPath ++ ["Attribute"]) _ _ _ _).finishElement
        rw [finish_within statementPath rfl, leave_attribute]
        change Except.ok (within statementPath [] subject none
          (KeyMap.insertAll attributes (entries ++ [(called, valuesIn children)]))) = _
        rw [KeyMap.insertAll_append]
        rfl
    · rw [if_neg hnm, List.append_nil]
      apply bind_congr
      intro entries
      rw [ok_bind, run_within statementPath rfl (by simp [statementPath, subjectPath])
        (by simp [statementPath, attributePath, hnm]), leave_other]
      · simp [within, statementPath, subjectPath]
      · simp [within, statementPath, attributePath]
      · exact fun h => hnm h.1

def assertionPath : List String := ["Response", "Assertion"]

/-- The subjects and the statements of an assertion add up. -/
theorem run_assertion (ns : List Node) :
    (within assertionPath [] subject none attributes).run (eventsOf ns) =
      (attributesIn ns).mapM entryOf >>= fun entries =>
        .ok (within assertionPath (trailing ns)
          (((nameIds ns).getLast?.map fun e => content e.2).or subject) none
          (KeyMap.insertAll attributes entries)) := by
  refine (run_children (fun ns => (attributesIn ns).mapM entryOf >>= fun entries =>
    .ok (within assertionPath (trailing ns)
      (((nameIds ns).getLast?.map fun e => content e.2).or subject) none
      (KeyMap.insertAll attributes entries)))
    ?nil (fun ns n hn => ?plain) (fun ns tag children => ?element) ns :)
  case nil =>
    rw [nameIds, attributesIn, named_nil, named_nil, List.flatMap_nil, List.flatMap_nil,
      List.mapM_nil]
    rfl
  case plain =>
    have hi : nameIds [n] = [] := by rw [nameIds, named_plain _ hn, List.flatMap_nil]
    have ha : attributesIn [n] = [] := by rw [attributesIn, named_plain _ hn, List.flatMap_nil]
    rw [nameIds_append, attributesIn_append, hi, ha, List.append_nil, List.append_nil,
      trailing_concat_plain ns hn, bind_assoc]
    rfl
  case element =>
    -- a subject adds its names, a statement its attributes, any other element nothing
    rw [nameIds_append, attributesIn_append, trailing_concat_element, List.mapM_append, bind_assoc,
      bind_assoc]
    apply bind_congr
    intro entries
    rw [ok_bind]
    by_cases hs : name tag = "Subject"
    · have hi : nameIds [.element tag children] = named "NameID" children := by
        rw [nameIds, named_element, if_pos hs, List.flatMap_singleton]
      have ha : attributesIn [.element tag children] = [] := by
        rw [attributesIn, named_element, if_neg (by simp [hs]), List.flatMap_nil]
      rw [run_element, start_within assertionPath rfl (by simp [hs]), ok_bind, hs, ha, hi,
        List.mapM_nil]
      change _ = (within subjectPath _ _ _ _).run _ >>= _
      rw [run_subject, ok_bind]
      change _ = Except.ok (within (assertionPath ++ ["Subject"]) _ _ _ _).finishElement
      rw [finish_within assertionPath rfl, leave_other (by simp) (by simp) (by simp)]
      change Except.ok (within _ _ _ _ (KeyMap.insertAll _ (entries ++ []))) = _
      rw [List.append_nil, List.getLast?_append, Option.map_or, Option.or_assoc]
    by_cases ht : name tag = "AttributeStatement"
    · have hi : nameIds [.element tag children] = [] := by
        rw [nameIds, named_element, if_neg hs, List.flatMap_nil]
      have ha : attributesIn [.element tag children] = named "Attribute" children := by
        rw [attributesIn, named_element, if_pos ht, List.flatMap_singleton]
      rw [run_element, start_within assertionPath rfl (by simp [ht]), ok_bind, ht, ha, hi,
        List.append_nil]
      change _ = (within statementPath _ _ _ _).run _ >>= _
      rw [run_statement, bind_assoc, bind_assoc]
      apply bind_congr
      intro more
      rw [ok_bind]
      change _ = Except.ok (within (assertionPath ++ ["AttributeStatement"]) _ _ _ _).finishElement
      rw [finish_within assertionPath rfl, leave_other (by simp) (by simp) (by simp)]
      change Except.ok (within _ _ _ _ (KeyMap.insertAll _ (entries ++ more))) = _
      rw [KeyMap.insertAll_append]
    · have hi : nameIds [.element tag children] = [] := by
        rw [nameIds, named_element, if_neg hs, List.flatMap_nil]
      have ha : attributesIn [.element tag children] = [] := by
        rw [attributesIn, named_element, if_neg ht, List.flatMap_nil]
      rw [run_within assertionPath rfl (by simp [assertionPath, subjectPath, hs])
        (by simp [assertionPath, attributePath, ht]), leave_other, hi, ha, List.mapM_nil,
        List.append_nil]
      · change Except.ok (within _ _ _ _ (KeyMap.insertAll _ (entries ++ []))) = _
        rw [List.append_nil]
      · simp [within, assertionPath, subjectPath]
      · simp [within, assertionPath, attributePath]
      · simp [within, assertionPath, statementPath]

end State
end ClaimMapping.Provider.Saml
