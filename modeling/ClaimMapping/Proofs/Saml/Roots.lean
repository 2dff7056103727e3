import ClaimMapping.Proofs.Saml.Forest
import ClaimMapping.Proofs.Saml.Refinement

namespace ClaimMapping.Provider.Saml

open Journal (ok_bind error_bind bind_eq_ok_iff bind_eq_error_iff)

/-- A node with its children, when it is an element. -/
def asElement? : Node → Option Element
  | .element tag children => some (tag, children)
  | _ => none

theorem asElement?_eq_none_iff {n : Node} : asElement? n = none ↔ isElement n = false := by
  cases n <;> simp [asElement?, isElement]

theorem asElement?_eq_some_iff {n : Node} {e : Element} :
    asElement? n = some e ↔ n = .element e.1 e.2 := by
  cases n <;> simp [asElement?, Prod.ext_iff]

/-- The elements at the top of a forest. -/
def roots (forest : List Node) : List Element := forest.filterMap asElement?

/-- The children of all elements at the top, in their order. -/
def childrenOf (forest : List Node) : List Node := (roots forest).flatMap Prod.snd

/-- The tag of a response of the protocol. -/
def IsResponse (tag : Xml.Element) : Prop :=
  name tag = "Response" ∧ tag.target = some "urn:oasis:names:tc:SAML:2.0:protocol".toList

instance (tag : Xml.Element) : Decidable (IsResponse tag) :=
  inferInstanceAs (Decidable (_ ∧ _))

theorem isRoot_iff {tag : Xml.Element} :
    State.isRoot tag (name tag) = true ↔ IsResponse tag := by
  simp only [State.isRoot, Bool.and_eq_true, beq_iff_eq]
  rfl

theorem roots_append (ns ms : List Node) : roots (ns ++ ms) = roots ns ++ roots ms :=
  List.filterMap_append

theorem roots_element (tag : Xml.Element) (children : List Node) :
    roots [.element tag children] = [(tag, children)] := rfl

theorem roots_plain {n : Node} (h : isElement n = false) : roots [n] = [] := by
  rw [roots, List.filterMap_cons, asElement?_eq_none_iff.mpr h, List.filterMap_nil]

theorem childrenOf_append (ns ms : List Node) :
    childrenOf (ns ++ ms) = childrenOf ns ++ childrenOf ms := by
  rw [childrenOf, roots_append, List.flatMap_append]
  rfl

theorem childrenOf_element (tag : Xml.Element) (children : List Node) :
    childrenOf [.element tag children] = children := List.append_nil _

theorem childrenOf_plain {n : Node} (h : isElement n = false) : childrenOf [n] = [] := by
  rw [childrenOf, roots_plain h, List.flatMap_nil]

/-- The elements that begin where none is open, when `level` are open in front. -/
def topStarts : (level : Nat) → List Xml.Event → List Xml.Element
  | _, [] => []
  | 0, .start tag :: es => tag :: topStarts 1 es
  | level + 1, .start _ :: es => topStarts (level + 2) es
  | level, .close :: es => topStarts (level - 1) es
  | level, _ :: es => topStarts level es

mutual

/-- The elements at the top are known from the events. -/
theorem topStarts_events (level : Nat) (es : List Xml.Event) : ∀ n : Node,
    topStarts level (events n ++ es) =
      (if level = 0 then (roots [n]).map Prod.fst else []) ++ topStarts level es
  | .element tag children => by
    have hinner : topStarts (level + 1) (eventsOf children ++ (.close :: es)) =
        topStarts level es := by
      rw [topStarts_eventsOf (level + 1) _ children, if_neg (Nat.succ_ne_zero level)]
      rfl
    rw [events, List.cons_append, List.append_assoc, List.singleton_append]
    cases level with
    | zero => exact congrArg (tag :: ·) hinner
    | succ level => exact hinner
  | .text _ => by cases level <;> rfl
  | .characterData _ => by cases level <;> rfl
  | .aside => by cases level <;> rfl

theorem topStarts_eventsOf (level : Nat) (es : List Xml.Event) : ∀ ns : List Node,
    topStarts level (eventsOf ns ++ es) =
      (if level = 0 then (roots ns).map Prod.fst else []) ++ topStarts level es
  | [] => by cases level <;> rfl
  | n :: ns => by
    have hroots : roots (n :: ns) = roots [n] ++ roots ns := roots_append [n] ns
    rw [eventsOf, List.append_assoc, topStarts_events level _ n, topStarts_eventsOf level es ns,
      hroots]
    split_ifs <;> simp

end

/-- Forests with the same events have the same elements at the top. -/
theorem tags_of_eventsOf_eq {f g : List Node} (h : eventsOf f = eventsOf g) :
    (roots f).map Prod.fst = (roots g).map Prod.fst := by
  have hf := topStarts_eventsOf 0 [] f
  have hg := topStarts_eventsOf 0 [] g
  rw [h] at hf
  simpa [topStarts] using hf.symm.trans hg

namespace State

/-- What assertions say together: their number, and the subject and the attributes of the first. -/
def told : List Element → Except ParseError (Nat × Option String × KeyMap (List String))
  | [] => .ok (0, none, [])
  | first :: others => (attributesIn first.2).mapM entryOf >>= fun entries =>
    .ok (others.length + 1, (nameIds first.2).getLast?.map fun e => content e.2,
      KeyMap.ofList entries)

theorem told_append_of_error {es : List Element} {e : ParseError} (h : told es = .error e)
    (more : List Element) : told (es ++ more) = .error e := by
  cases es with
  | nil => cases h
  | cons first others =>
    obtain h | ⟨entries, -, h⟩ := bind_eq_error_iff.mp h
    · rw [List.cons_append, told, h, error_bind]
    · cases h

/-- A response is what its assertions tell. -/
theorem ofChildren_eq (ns : List Node) :
    ofChildren ns = told (named "Assertion" ns) >>= fun (assertions, subject, attributes) =>
      .ok (below assertions (trailing ns) subject attributes) := by
  rw [ofChildren, told.eq_def]
  cases named "Assertion" ns with
  | nil => rfl
  | cons first others =>
    dsimp only
    rw [bind_assoc]
    rfl

/-- A state between the elements at the top. -/
def outside (rootSeen : Bool) (assertions : Nat) (text : List Char) (subject : Option String)
    (attributes : KeyMap (List String)) : State :=
  ⟨rootSeen, [], assertions, text, subject, none, attributes⟩

variable {assertions : Nat} {text : List Char} {subject : Option String}
  {attributes : KeyMap (List String)} {rootSeen : Bool}

theorem finishElement_below :
    (below assertions text subject attributes).finishElement =
      outside true assertions [] subject attributes := by
  simp [finishElement, below, outside, inFirst]

/-- Behind the assertions of earlier roots a root adds its own, as if an empty element stood between
them. -/
theorem run_below {earlier : List Node}
    (h : told (named "Assertion" earlier) = .ok (assertions, subject, attributes))
    {tag : Xml.Element} (htag : name tag = "Response") (ns : List Node) :
    (below assertions [] subject attributes).run (eventsOf ns) =
      ofChildren (earlier ++ [.element tag []] ++ ns) := by
  have hearlier : (below 0 [] none []).run (eventsOf (earlier ++ [.element tag []])) =
      .ok (below assertions [] subject attributes) := by
    rw [run_response, ofChildren_eq, named_append, named_element, if_neg (by simp [htag]),
      List.append_nil, h, trailing_concat_element]
    rfl
  rw [← run_response, eventsOf_append, run_append, hearlier, ok_bind]

/-- Whenever no element is open the next one is taken for the root, so that several responses in a
row are read as one with the children of all of them. -/
theorem run_root {earlier : List Node}
    (h : told (named "Assertion" earlier) = .ok (assertions, subject, attributes))
    (tag : Xml.Element) (ns : List Node) :
    (outside rootSeen assertions text subject attributes).run (events (.element tag ns)) =
      if IsResponse tag then
        told (named "Assertion" (earlier ++ ns)) >>= fun (assertions, subject, attributes) =>
          .ok (outside true assertions [] subject attributes)
      else .error (.unexpectedRoot (name tag)) := by
  rw [run_element, start_eq, enter_root _ rfl]
  by_cases hroot : IsResponse tag
  · rw [if_pos (isRoot_iff.mpr hroot), if_pos hroot, ok_bind, ok_bind, hroot.1]
    change (below assertions [] subject attributes).run (eventsOf ns) >>= _ = _
    rw [run_below h hroot.1, ofChildren_eq, named_append, named_append, named_element,
      if_neg (by simp [hroot.1]), List.append_nil, named_append, bind_assoc]
    apply bind_congr
    intro said
    rw [ok_bind, finishElement_below]
  · rw [if_neg (mt isRoot_iff.mp hroot), if_neg hroot]
    rfl

/-- Reading a forest of responses. -/
theorem run_forest {forest : List Node} (h : ∀ e ∈ roots forest, IsResponse e.1) :
    initial.run (eventsOf forest) =
      told (named "Assertion" (childrenOf forest)) >>= fun (assertions, subject, attributes) =>
        .ok (outside (!(roots forest).isEmpty) assertions (trailing forest) subject
          attributes) := by
  induction forest using List.reverseRecOn with
  | nil => rfl
  | append_singleton forest n ih =>
    rw [roots_append, List.forall_mem_append] at h
    obtain ⟨hforest, hn⟩ := h
    rw [run_eventsOf_concat, ih hforest, bind_assoc, roots_append, childrenOf_append]
    by_cases helement : isElement n = true
    · cases n with
      | element tag children =>
        have hroot : IsResponse tag := hn (tag, children) List.mem_cons_self
        rw [trailing_concat_element, childrenOf_element]
        cases hsaid : told (named "Assertion" (childrenOf forest)) with
        | error e => rw [named_append, told_append_of_error hsaid, error_bind, error_bind]
        | ok said =>
          have hseen : (!(roots forest ++ [(tag, children)]).isEmpty) = true := by simp
          rw [ok_bind, ok_bind, run_root hsaid, if_pos hroot, roots_element, hseen]
      | _ => cases helement
    · rw [Bool.not_eq_true] at helement
      rw [trailing_concat_plain forest helement, roots_plain helement, childrenOf_plain helement,
        List.append_nil, List.append_nil]
      apply bind_congr
      intro said
      exact run_plain _ helement

/-- Every element at the top has been a root. -/
theorem isResponse_of_run {forest : List Node} {s : State}
    (h : initial.run (eventsOf forest) = .ok s) : ∀ e ∈ roots forest, IsResponse e.1 := by
  induction forest using List.reverseRecOn generalizing s with
  | nil => exact fun e he => absurd he List.not_mem_nil
  | append_singleton forest n ih =>
    rw [run_eventsOf_concat] at h
    obtain ⟨s', hforest, h⟩ := bind_eq_ok_iff.mp h
    have hresponses := ih hforest
    rw [roots_append]
    refine List.forall_mem_append.mpr ⟨hresponses, fun e he => ?_⟩
    rw [run_forest hresponses] at hforest
    obtain ⟨said, hsaid, hforest⟩ := bind_eq_ok_iff.mp hforest
    cases hforest
    cases n with
    | element tag children =>
      rw [run_root hsaid] at h
      split_ifs at h with hroot
      obtain rfl := List.mem_singleton.mp he
      exact hroot
    | _ => cases he

end State

/-- Responses in a row are read by their children. -/
theorem readStream_forest_congr {f g : List Node} (hf : ∀ e ∈ roots f, IsResponse e.1)
    (hg : ∀ e ∈ roots g, IsResponse e.1) (hroots : (roots f).isEmpty = (roots g).isEmpty)
    (hchildren : childrenOf f = childrenOf g) :
    readStream ⟨eventsOf f, none⟩ = readStream ⟨eventsOf g, none⟩ := by
  change State.initial.run (eventsOf f) >>= State.finish =
    State.initial.run (eventsOf g) >>= State.finish
  rw [State.run_forest hf, State.run_forest hg, hroots, hchildren, bind_assoc, bind_assoc]
  apply bind_congr
  intro said
  rfl

/-- A document that is accepted has responses at its top and no other elements. -/
theorem responses_of_readStream {forest : List Node} {a : Assertion}
    (h : readStream ⟨eventsOf forest, none⟩ = .ok a) :
    (∀ e ∈ roots forest, IsResponse e.1) ∧ roots forest ≠ [] := by
  have hread : State.initial.run (eventsOf forest) >>= State.finish = .ok a := h
  obtain ⟨s, hrun, hfinish⟩ := bind_eq_ok_iff.mp hread
  have hresponses := State.isResponse_of_run hrun
  refine ⟨hresponses, fun hempty => ?_⟩
  rw [State.run_forest hresponses] at hrun
  obtain ⟨said, -, hrun⟩ := bind_eq_ok_iff.mp hrun
  cases hrun
  rw [hempty] at hfinish
  cases hfinish

/-- The document with one root and the children of all the others too. -/
def merged (tag : Xml.Element) (forest : List Node) : Document :=
  ⟨[], tag, childrenOf forest, [], nofun, nofun⟩

/-- Responses in a row describe what one response with all their children describes. -/
theorem readStream_forest_eq_ok_iff {forest : List Node} {a : Assertion} :
    readStream ⟨eventsOf forest, none⟩ = .ok a ↔
      (∀ e ∈ roots forest, IsResponse e.1) ∧
        ∃ first others, roots forest = first :: others ∧ Describes (merged first.1 forest) a := by
  have hmerged {first : Element} {others : List Element} (hroots : roots forest = first :: others)
      (hresponses : ∀ e ∈ roots forest, IsResponse e.1) :
      readStream ⟨eventsOf forest, none⟩ = readStream ⟨(merged first.1 forest).events, none⟩ := by
    have hone : IsResponse first.1 := hresponses first (hroots ▸ List.mem_cons_self)
    refine readStream_forest_congr (g := [.element first.1 (childrenOf forest)]) hresponses
      (List.forall_mem_singleton.mpr hone) (by rw [hroots]; rfl) (childrenOf_element _ _).symm
  constructor
  · intro h
    obtain ⟨hresponses, hne⟩ := responses_of_readStream h
    obtain ⟨first, others, hroots⟩ := List.exists_cons_of_ne_nil hne
    rw [hmerged hroots hresponses, readStream_eq_ok_iff] at h
    exact ⟨hresponses, first, others, hroots, h⟩
  · intro h
    obtain ⟨hresponses, first, others, hroots, h⟩ := h
    rwa [hmerged hroots hresponses, readStream_eq_ok_iff]

/-- A single element at the top, and what stands around it. -/
theorem exists_document {forest : List Node} {root : Element} (h : roots forest = [root]) :
    ∃ d : Document, d.events = eventsOf forest ∧ (d.tag, d.children) = root := by
  obtain ⟨before, n, after, rfl, hbefore, hn, hafter⟩ := List.filterMap_eq_cons_iff.mp h
  obtain rfl := asElement?_eq_some_iff.mp hn
  have hplain := List.filterMap_eq_nil_iff.mp hafter
  refine ⟨⟨before, root.1, root.2, after, fun n hn => asElement?_eq_none_iff.mp (hbefore n hn),
    fun n hn => asElement?_eq_none_iff.mp (hplain n hn)⟩, ?_, rfl⟩
  rw [Document.events, eventsOf_append, eventsOf, List.append_assoc]

theorem roots_of_document (d : Document) :
    ∃ forest, d.events = eventsOf forest ∧ roots forest = [(d.tag, d.children)] := by
  have hbefore : roots d.before = [] :=
    List.filterMap_eq_nil_iff.mpr fun n hn => asElement?_eq_none_iff.mpr (d.before_plain n hn)
  have hafter : roots d.after = [] :=
    List.filterMap_eq_nil_iff.mpr fun n hn => asElement?_eq_none_iff.mpr (d.after_plain n hn)
  refine ⟨d.before ++ [.element d.tag d.children] ++ d.after, ?_, ?_⟩
  · rw [Document.events, eventsOf_append, eventsOf_append, eventsOf_singleton]
  · rw [roots_append, roots_append, hbefore, hafter]
    rfl

/-- A text is accepted as a forest in which every element at the top is a response and all of them
together describe one assertion. As long as no second response stands at the top, that is a document
with one root, which the assertion is read from. -/
theorem read_roots (payload : String) :
    (∀ a, read payload = .ok a → ∃ forest, Xml.events payload.toList = ⟨eventsOf forest, none⟩) ∧
    ∀ forest, Xml.events payload.toList = ⟨eventsOf forest, none⟩ → ∀ a,
      (read payload = .ok a ↔ (∀ e ∈ roots forest, IsResponse e.1) ∧
        ∃ first others, roots forest = first :: others ∧ Describes (merged first.1 forest) a) ∧
      ((roots forest).countP (fun e => IsResponse e.1) ≤ 1 → read payload = .ok a →
        ∃ d : Document, roots forest = [(d.tag, d.children)] ∧
          Xml.events payload.toList = ⟨d.events, none⟩ ∧ Describes d a) := by
  refine ⟨fun a h => exists_forest_of_read h, fun forest hforest a => ?_⟩
  have hread : read payload = readStream ⟨eventsOf forest, none⟩ := by rw [read, hforest]
  rw [hread, hforest]
  refine ⟨readStream_forest_eq_ok_iff, fun hcount h => ?_⟩
  obtain ⟨hresponses, first, others, hroots, -⟩ := readStream_forest_eq_ok_iff.mp h
  have hall : (roots forest).countP (fun e => IsResponse e.1) = (roots forest).length :=
    List.countP_eq_length.mpr fun e he => decide_eq_true (hresponses e he)
  have hothers : others = [] := by
    rw [hall, hroots, List.length_cons] at hcount
    exact List.length_eq_zero_iff.mp (by omega)
  obtain ⟨d, hd, hroot⟩ := exists_document (hothers ▸ hroots)
  rw [← hd] at h ⊢
  exact ⟨d, by rw [hroots, hothers, hroot], rfl, (readStream_eq_ok_iff d a).mp h⟩

def protocolResponse (children : List Node) : Node :=
  .element ⟨"Response".toList, some protocolNamespace,
    " xmlns='urn:oasis:names:tc:SAML:2.0:protocol'".toList⟩ children

/-- An assertion in the namespace around it that has only a subject. -/
def subjectAssertion (subject : String) : Node :=
  let plain (nm : String) (children : List Node) : Node :=
    .element ⟨nm.toList, some protocolNamespace, []⟩ children
  plain "Assertion" [plain "Subject" [plain "NameID" [.text subject.toList]]]

def oneResponse : String :=
  "<Response xmlns='urn:oasis:names:tc:SAML:2.0:protocol'><Assertion><Subject><NameID>alice" ++
    "</NameID></Subject></Assertion></Response>"

theorem stream_eq {stream : Xml.Stream} {es : List Xml.Event}
    (h : (stream.events, stream.defect) = (es, none)) : stream = ⟨es, none⟩ := by
  obtain ⟨events, defect⟩ := stream
  cases h
  rfl

theorem events_oneResponse : Xml.events oneResponse.toList =
    ⟨eventsOf [protocolResponse [subjectAssertion "alice"]], none⟩ :=
  stream_eq (by decide +kernel)

theorem read_oneResponse :
    Xml.events oneResponse.toList =
      ⟨eventsOf [protocolResponse [subjectAssertion "alice"]], none⟩ ∧
    read oneResponse = .ok ⟨"alice", []⟩ ∧
    ∃ d : Document, Xml.events oneResponse.toList = ⟨d.events, none⟩ ∧
      Describes d ⟨"alice", []⟩ := by
  have hread : read oneResponse = .ok ⟨"alice", []⟩ := by
    rw [read, events_oneResponse]
    rfl
  obtain ⟨-, hforest⟩ := read_roots oneResponse
  obtain ⟨-, hsingle⟩ := hforest _ events_oneResponse ⟨"alice", []⟩
  obtain ⟨d, -, hd, hdescribes⟩ := hsingle (by decide) hread
  exact ⟨events_oneResponse, hread, d, hd, hdescribes⟩

def twoResponses : String :=
  "<Response xmlns='urn:oasis:names:tc:SAML:2.0:protocol'/>" ++
    "<Response xmlns='urn:oasis:names:tc:SAML:2.0:protocol'><Assertion><Subject><NameID>mallory" ++
    "</NameID></Subject></Assertion></Response>"

theorem events_twoResponses : Xml.events twoResponses.toList =
    ⟨eventsOf [protocolResponse [], protocolResponse [subjectAssertion "mallory"]], none⟩ :=
  stream_eq (by decide +kernel)

/-- The second response is taken for another root, although a document has only one. -/
theorem read_twoResponses :
    read twoResponses = .ok ⟨"mallory", []⟩ ∧
    Xml.events twoResponses.toList =
      ⟨eventsOf [protocolResponse [], protocolResponse [subjectAssertion "mallory"]], none⟩ ∧
    ¬ ∃ d : Document, Xml.events twoResponses.toList = ⟨d.events, none⟩ := by
  have hread : read twoResponses = .ok ⟨"mallory", []⟩ := by
    rw [read, events_twoResponses]
    rfl
  refine ⟨hread, events_twoResponses, fun h => ?_⟩
  obtain ⟨d, hd⟩ := h
  obtain ⟨forest, hforest, hroots⟩ := roots_of_document d
  rw [events_twoResponses, hforest] at hd
  have htags := tags_of_eventsOf_eq (Xml.Stream.mk.inj hd).1
  rw [hroots] at htags
  have hlength : 2 = 1 := congrArg List.length htags
  omega

end ClaimMapping.Provider.Saml
