import ClaimMapping.Proofs.Saml.Place
import ClaimMapping.Proofs.Saml.Step

namespace ClaimMapping.Provider.Saml

open Journal (bind_eq_ok_iff)
open Xml (levelBehind?_append)

/-- The attribute that is open at a place by its name and the contents of its values so far. -/
inductive IsPending (opened : List Frame) (ns : List Node) : Option Pending → Prop where
  | absent (h : ∀ tag children, ¬ IsOpenAttribute opened ns tag children) :
      IsPending opened ns none
  | present {tag : Xml.Element} {children : List Node} {p : Pending}
      (h : IsOpenAttribute opened ns tag children) (called : IsCalled tag p.name)
      (values : p.values = valuesIn children) : IsPending opened ns (some p)

/-- The state of a place, as far as the elements open there and the nodes in front of it tell. -/
structure State.Follows (s : State) (opened : List Frame) (ns : List Node) : Prop where
  path : s.path = openPath opened
  text : s.text = lastText (eventsWithin opened ns)
  assertions : s.assertions = assertionsBegun (eventsWithin opened ns)
  pending : IsPending opened ns s.pending

section Attribute

variable {opened outer : List Frame} {before ns children : List Node} {tag : Xml.Element}

theorem isCalled_of_begin {p : Pending} (h : State.begin tag = .ok p) :
    IsCalled tag p.name ∧ p.values = [] := by
  unfold State.begin at h
  split at h
  case h_1 value hvalue =>
    cases h
    exact ⟨⟨value, hvalue, rfl⟩, rfl⟩
  case h_2 => cases h

namespace IsPending

variable {q : Option Pending}

/-- A start that no attribute of the first assertion begins with. -/
theorem start (h : IsPending opened ns q)
    (hother : ¬ (WithinFirst opened ∧ openPath opened = State.statementPath ∧
      name tag = "Attribute")) : IsPending ((ns, tag) :: opened) [] q := by
  cases h with
  | absent h =>
    refine .absent fun t children hopen => ?_
    cases hopen with
    | innermost within path is_attribute => exact hother ⟨within, path, is_attribute⟩
    | around hopen => exact h t children hopen
  | present hopen called values => exact .present (hopen.around tag []) called values

/-- The end of anything but an attribute of the first assertion. -/
theorem leave (h : IsPending ((before, tag) :: outer) ns q)
    (hother : ¬ (WithinFirst outer ∧ openPath outer = State.statementPath ∧
      name tag = "Attribute")) : IsPending outer before q := by
  cases h with
  | absent h => exact .absent fun t children hopen => h t children (hopen.around tag ns)
  | present hopen called values =>
    cases hopen with
    | innermost within path is_attribute => exact absurd ⟨within, path, is_attribute⟩ hother
    | around hopen => exact .present hopen called values

/-- A node that is no value of the open attribute. -/
theorem concat (h : IsPending opened ns q) {n : Node}
    (hn : WithinFirst opened → openPath opened = State.attributePath → valuesIn [n] = []) :
    IsPending opened (ns ++ [n]) q := by
  cases h with
  | absent h =>
    refine .absent fun t children hopen => ?_
    cases hopen with
    | innermost within path is_attribute before =>
      exact h t ns (.innermost within path is_attribute before ns)
    | around hopen inner => exact h t children (hopen.around inner ns)
  | present hopen called values =>
    cases hopen with
    | @innermost outer tag within path is_attribute before =>
      have hvalues : valuesIn [n] = [] := by
        refine hn (within.cons _) ?_
        rw [openPath_cons, path, is_attribute]
        rfl
      refine .present (.innermost within path is_attribute before (ns ++ [n])) called ?_
      rw [valuesIn_append, hvalues, List.append_nil, values]
    | around hopen inner => exact .present (hopen.around inner (ns ++ [n])) called values

/-- A value of the open attribute is added to it. -/
theorem concat_value (h : IsPending opened ns q) (hfirst : WithinFirst opened)
    (hpath : openPath opened = State.attributePath) (htag : name tag = "AttributeValue")
    (children : List Node) :
    IsPending opened (ns ++ [.element tag children])
      (q.map fun p => { p with values := p.values ++ [content children] }) := by
  have hvalues : valuesIn [.element tag children] = [content children] := by
    rw [valuesIn, named_element, if_pos htag]
    rfl
  cases h with
  | absent h =>
    have hexists : ∃ t inner, IsOpenAttribute opened ns t inner :=
      exists_isOpenAttribute_iff.mpr ⟨hpath ▸ List.prefix_rfl, hfirst⟩
    obtain ⟨t, inner, hopen⟩ := hexists
    exact absurd hopen (h t inner)
  | present hopen called values =>
    cases hopen with
    | innermost within path is_attribute before =>
      refine .present (.innermost within path is_attribute before _) called ?_
      rw [valuesIn_append, hvalues, ← values]
    | @around outer _ _ _ hopen =>
      have hlength : (openPath (_ :: outer)).length = 4 := congrArg List.length hpath
      rw [length_openPath, List.length_cons] at hlength
      have hlt := hopen.lt_length
      omega

end IsPending

end Attribute

namespace State.Follows

variable {s s' : State} {opened outer : List Frame} {before ns : List Node} {tag : Xml.Element}

theorem initial : State.initial.Follows [] [] where
  path := rfl
  text := rfl
  assertions := rfl
  pending := .absent fun _ _ hopen => absurd hopen.lt_length (by decide)

/-- Whether an assertion that is open around a place is the first one. -/
theorem inFirst_iff (inner : List Frame) (h : s.Follows (inner ++ outer) ns) :
    ({ s with path := openPath outer, text := [] } : State).inFirst = true ↔
      WithinFirst outer := by
  rw [withinFirst_iff inner outer ns, ← h.assertions, inFirst, Bool.and_eq_true, beq_iff_eq,
    beq_iff_eq]

theorem start (h : s.Follows opened ns) (hstart : s.start tag = .ok s') :
    s'.Follows ((ns, tag) :: opened) [] := by
  obtain ⟨s₁, henter, hs'⟩ := bind_eq_ok_iff.mp ((start_eq s tag).symm.trans hstart)
  cases hs'
  have hevents : eventsWithin ((ns, tag) :: opened) [] =
      eventsWithin opened ns ++ [.start tag] := rfl
  have hfirst : s.inFirst = true ↔ WithinFirst opened := by
    have hclosed := inFirst_iff [] h
    rwa [← h.path] at hclosed
  have hlength : s.path.length = opened.length := by rw [h.path, length_openPath]
  have follows (hpath : s₁.path = s.path)
      (hcount : s₁.assertions = s.assertions +
        if opened.length = 1 ∧ name tag = "Assertion" then 1 else 0)
      (hpending : IsPending ((ns, tag) :: opened) [] s₁.pending) :
      (s₁.opened (name tag)).Follows ((ns, tag) :: opened) [] := by
    refine ⟨?_, ?_, ?_, hpending⟩
    · rw [openPath_cons, ← h.path, ← hpath]
      rfl
    · rw [hevents, lastText_concat_of_isTag _ rfl]
      rfl
    · rw [hevents, assertionsBegun_start, ← h.assertions]
      exact hcount
  rw [← hlength] at follows
  obtain ⟨hpath, -, rfl⟩ | ⟨hone, hname, rfl⟩ | ⟨hattribute, p, hp, rfl⟩ |
    ⟨hassertion, hattribute, rfl⟩ := enter_cases henter
  · refine follows rfl (by simp [hpath]) (h.pending.start ?_)
    rw [← h.path, hpath]
    simp [statementPath]
  · refine follows rfl (by simp [hone, hname]) (h.pending.start ?_)
    simp [hname]
  · refine follows rfl (by simp [hattribute.2.2]) ?_
    obtain ⟨hcalled, hvalues⟩ := isCalled_of_begin hp
    rw [hfirst, h.path] at hattribute
    obtain ⟨hwithin, hpath, hname⟩ := hattribute
    exact .present (.innermost hwithin hpath hname ns []) hcalled hvalues
  · refine follows rfl (by simp [hassertion]) (h.pending.start ?_)
    rwa [hfirst, h.path] at hattribute

/-- The end of an element leads back to the place behind it. -/
theorem finishElement (h : s.Follows ((before, tag) :: outer) ns) :
    s.finishElement.Follows outer (before ++ [.element tag ns]) := by
  have hevents := eventsWithin_close outer before tag ns
  have follows {s' : State} (hpath : s'.path = openPath outer) (htext : s'.text = [])
      (hcount : s'.assertions = s.assertions)
      (hpending : IsPending outer (before ++ [.element tag ns]) s'.pending) :
      s'.Follows outer (before ++ [.element tag ns]) := by
    refine ⟨hpath, ?_, ?_, hpending⟩
    · rw [htext, hevents, lastText_concat_of_isTag _ rfl]
    · rw [hcount, h.assertions, hevents, assertionsBegun_concat _ _ (by simp)]
  have hfirst := inFirst_iff [(before, tag)] h
  have hcontent : String.ofList s.text = content ns := by
    rw [h.text, lastText_within]
    rfl
  -- an element that is no value leaves the open attribute as it was
  have unchanged (hattribute : ¬ (WithinFirst outer ∧ openPath outer = statementPath ∧
        name tag = "Attribute"))
      (hvalue : WithinFirst outer → openPath outer = attributePath →
        name tag ≠ "AttributeValue") :
      IsPending outer (before ++ [.element tag ns]) s.pending := by
    refine (h.pending.leave hattribute).concat fun hwithin hpath => ?_
    rw [valuesIn, named_element, if_neg (hvalue hwithin hpath)]
    rfl
  rw [finishElement_of_path (openPath outer) (name tag) (h.path.trans (openPath_cons _ _))]
  split_ifs with hin
  · have hwithin := hfirst.mp hin
    obtain ⟨⟨hname, -⟩, hleave⟩ | ⟨⟨hname, hpath⟩, hleave⟩ | ⟨⟨-, hpath⟩, p, -, hleave⟩ |
      ⟨hvalue, hattribute, hleave⟩ :=
        leave_cases { s with path := openPath outer, text := [] } (name tag) s.text
    · rw [hleave]
      exact follows rfl rfl rfl (unchanged (by simp [hname]) (by simp [hname]))
    · rw [hleave, hcontent]
      refine follows rfl rfl rfl ?_
      exact (h.pending.leave (by simp [hname])).concat_value hwithin hpath hname ns
    · rw [hleave]
      exact follows rfl rfl rfl (.absent fun _ _ => not_isOpenAttribute hpath)
    · rw [hleave]
      refine follows rfl rfl rfl ?_
      by_cases hends : name tag = "Attribute" ∧ openPath outer = statementPath
      · rw [show s.pending = none from hattribute hends]
        exact .absent fun _ _ => not_isOpenAttribute hends.2
      · exact unchanged (fun h => hends ⟨h.2.2, h.2.1⟩) fun _ hpath hname => hvalue ⟨hname, hpath⟩
  · have hwithin := mt hfirst.mpr hin
    exact follows rfl rfl rfl (unchanged (fun h => hwithin h.1) fun h => absurd h hwithin)

theorem plain (h : s.Follows opened ns) {n : Node} (hn : isElement n = false) :
    ({ s with text := s.text ++ characters n } : State).Follows opened (ns ++ [n]) where
  path := h.path
  text := by rw [eventsWithin_concat, lastText_concat_plain _ hn, h.text]
  assertions := by
    rw [eventsWithin_concat]
    cases n with
    | element => cases hn
    | _ => exact h.assertions.trans (assertionsBegun_concat opened ns (by simp)).symm
  pending := by
    refine h.pending.concat fun _ _ => ?_
    rw [valuesIn, named_plain _ hn]
    rfl

end State.Follows

/-- The path, the text, the number of assertions and the pending attribute of a state are those of
the place that the events lead to. -/
theorem State.follows_of_run {opened : List Frame} {ns : List Node} {s : State}
    (h : State.initial.run (eventsWithin opened ns) = .ok s) : s.Follows opened ns := by
  induction opened, ns using place_induction generalizing s with
  | initial =>
    cases h
    exact .initial
  | start opened ns tag ih =>
    obtain ⟨s₁, hfront, h⟩ := bind_eq_ok_iff.mp ((run_append _ _ _).symm.trans h)
    obtain ⟨s₂, hstart, h⟩ := bind_eq_ok_iff.mp h
    cases h
    exact (ih hfront).start hstart
  | close outer before tag ns ih =>
    rw [eventsWithin_close, run_append] at h
    obtain ⟨s₁, hfront, h⟩ := bind_eq_ok_iff.mp h
    cases h
    exact (ih hfront).finishElement
  | plain opened ns n hn ih =>
    rw [eventsWithin_concat, run_append] at h
    obtain ⟨s₁, hfront, h⟩ := bind_eq_ok_iff.mp h
    rw [run_plain s₁ hn] at h
    cases h
    exact (ih hfront).plain hn

/-- An attribute is pending exactly inside of an attribute of the first assertion. -/
theorem IsPending.ne_none_iff {opened : List Frame} {ns : List Node} {q : Option Pending}
    (h : IsPending opened ns q) :
    q ≠ none ↔ State.attributePath <+: openPath opened ∧ WithinFirst opened := by
  have hopened : (∃ tag children, IsOpenAttribute opened ns tag children) ↔
      State.attributePath <+: openPath opened ∧ WithinFirst opened := exists_isOpenAttribute_iff
  rw [← hopened]
  cases h with
  | absent h => exact ⟨fun hne => absurd rfl hne, fun ⟨tag, children, hopen⟩ =>
      absurd hopen (h tag children)⟩
  | present hopen called values => exact ⟨fun _ => ⟨_, _, hopen⟩, fun _ => Option.some_ne_none _⟩

/-- Behind every part of a text that has been read, the state is that of the place: the path names
the open elements, the text is what stands behind the last start or end, the count is that of the
assertions begun below a root, and an attribute is pending exactly when one of the first assertion
is open, with its name and the values closed in it. -/
theorem State.follows_of_prefix {source : List Char} {es : List Xml.Event} {s : State}
    (hes : es <+: (Xml.events source).events) (hrun : State.initial.run es = .ok s) :
    (∃ opened ns, es = eventsWithin opened ns) ∧
      ∀ opened ns, es = eventsWithin opened ns → s.Follows opened ns ∧
        (s.pending ≠ none ↔ State.attributePath <+: s.path ∧ WithinFirst opened) := by
  constructor
  · obtain ⟨fs, hevents⟩ := hes
    obtain ⟨last, hlast⟩ := Xml.nests_events source
    rw [← hevents, levelBehind?_append] at hlast
    obtain ⟨level, hlevel, -⟩ := Option.bind_eq_some_iff.mp hlast
    obtain ⟨opened, ns, -, hplace⟩ := exists_place [] [] hlevel
    exact ⟨opened, ns, hplace⟩
  · rintro opened ns rfl
    have hfollows := State.follows_of_run hrun
    refine ⟨hfollows, ?_⟩
    rw [hfollows.path]
    exact hfollows.pending.ne_none_iff

/-- A text that ends inside the second value of an attribute. -/
def cutResponse : String :=
  "<Response xmlns='urn:oasis:names:tc:SAML:2.0:protocol'><Assertion><AttributeStatement>" ++
    "<Attribute Name='role'><AttributeValue>x</AttributeValue><AttributeValue>y"

theorem State.follows_cutResponse :
    ∃ s : State, State.initial.run (Xml.events cutResponse.toList).events = .ok s ∧
      s.text = "y".toList ∧ s.pending = some ⟨"role", ["x"]⟩ ∧
      ∃ opened ns, (Xml.events cutResponse.toList).events = eventsWithin opened ns ∧
        s.Follows opened ns ∧ State.attributePath <+: openPath opened ∧ WithinFirst opened := by
  let s : State := ⟨true, State.attributePath ++ ["AttributeValue"], 1, "y".toList, none,
    some ⟨"role", ["x"]⟩, []⟩
  have hrun : State.initial.run (Xml.events cutResponse.toList).events = .ok s :=
    Journal.eq_ok_of_toOption (by decide +kernel)
  obtain ⟨⟨opened, ns, hplace⟩, hfollows⟩ := State.follows_of_prefix List.prefix_rfl hrun
  obtain ⟨hstate, hpending⟩ := hfollows opened ns hplace
  obtain ⟨hpath, hfirst⟩ := hpending.mp (Option.some_ne_none _)
  rw [hstate.path] at hpath
  exact ⟨s, hrun, rfl, rfl, opened, ns, hplace, hstate, hpath, hfirst⟩

end ClaimMapping.Provider.Saml
