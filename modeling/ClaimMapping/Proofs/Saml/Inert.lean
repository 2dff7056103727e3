import ClaimMapping.Proofs.Journal.Outcome
import ClaimMapping.Proofs.Saml.Tree

namespace ClaimMapping.Provider.Saml

open Journal (ok_bind)

/-- The state after some events. -/
def State.run (s : State) (es : List Xml.Event) : Except ParseError State := es.foldlM State.step s

namespace State

theorem run_append (s : State) (es fs : List Xml.Event) :
    s.run (es ++ fs) = s.run es >>= fun s => s.run fs := List.foldlM_append

theorem run_eventsOf_concat (s : State) (ns : List Node) (n : Node) :
    s.run (eventsOf (ns ++ [n])) = s.run (eventsOf ns) >>= fun s => s.run (events n) := by
  rw [eventsOf_append, eventsOf_singleton, run_append]

theorem run_plain (s : State) {n : Node} (h : isElement n = false) :
    s.run (events n) = .ok { s with text := s.text ++ characters n } := by
  cases n with
  | element => cases h
  | text => rfl
  | characterData => rfl
  | aside =>
    change Except.ok s = Except.ok { s with text := s.text ++ [] }
    rw [List.append_nil]

theorem run_element (s : State) (tag : Xml.Element) (children : List Node) :
    s.run (events (.element tag children)) =
      s.start tag >>= fun s => s.run (eventsOf children) >>= fun s => .ok s.finishElement := by
  rw [events, ← List.singleton_append, run_append, run]
  simp only [List.foldlM_cons, List.foldlM_nil, bind_pure, run_append]
  rfl

/-- A state with one more element open. -/
def opened (s : State) (nm : String) : State := { s with path := s.path ++ [nm], text := [] }

theorem finishElement_of_path {s : State} (path : List String) (nm : String)
    (h : s.path = path ++ [nm]) :
    s.finishElement =
      if ({ s with path := path, text := [] } : State).inFirst then
        ({ s with path := path, text := [] } : State).leave nm s.text
      else { s with path := path, text := [] } := by
  rw [finishElement, h, List.getLast?_concat, List.dropLast_concat]

/-- Below every element that the first assertion is made of. -/
structure Inert (s : State) : Prop where
  deep : 2 ≤ s.path.length
  apart : s.inFirst = true → ¬ s.path <+: subjectPath ∧ ¬ s.path <+: attributePath

theorem start_eq (s : State) (tag : Xml.Element) :
    s.start tag = s.enter tag (name tag) >>= fun s => .ok (s.opened (name tag)) := rfl

/-- Below the level of assertions only attributes of the first one do anything at their start. -/
theorem enter_of_deep {s : State} (h : 2 ≤ s.path.length) {tag : Xml.Element} {nm : String}
    (hs : ¬ (s.inFirst ∧ s.path = statementPath ∧ nm = "Attribute")) :
    s.enter tag nm = .ok s := by
  have hpath : s.path.isEmpty = false := by
    cases hp : s.path with
    | nil => simp [hp] at h
    | cons => rfl
  have hone : ¬ (s.path.length = 1 ∧ nm = "Assertion") := by omega
  rw [enter, hpath, if_neg Bool.false_ne_true, if_neg hone, if_neg hs]

theorem Inert.start {s : State} (h : s.Inert) (tag : Xml.Element) :
    s.start tag = .ok (s.opened (name tag)) := by
  have hs : ¬ (s.inFirst ∧ s.path = statementPath ∧ name tag = "Attribute") := by
    intro h
    obtain ⟨hin, hp, -⟩ := h
    exact (h.apart hin).2 (hp ▸ by decide)
  rw [start_eq, enter_of_deep h.deep hs, ok_bind]

theorem inFirst_opened {s : State} (h : 2 ≤ s.path.length) (nm : String) :
    (s.opened nm).inFirst = s.inFirst := by
  rw [inFirst, opened, inFirst, List.getElem?_append_left (by omega)]

theorem Inert.opened {s : State} (h : s.Inert) (nm : String) : (s.opened nm).Inert where
  deep := by
    have hdeep := h.deep
    simp only [State.opened, List.length_append]
    omega
  apart hin := by
    rw [inFirst_opened h.deep] at hin
    have hs := List.prefix_append s.path [nm]
    exact ⟨fun hp => (h.apart hin).1 (hs.trans hp), fun hp => (h.apart hin).2 (hs.trans hp)⟩

theorem Inert.finishElement {s : State} (h : s.Inert) (nm : String) (text : List Char) :
    ({ s.opened nm with text := text } : State).finishElement = { s with text := [] } := by
  rw [finishElement_of_path s.path nm rfl]
  change (if s.inFirst then ({ s with text := [] } : State).leave nm text
    else { s with text := [] }) = _
  by_cases hin : s.inFirst = true
  · obtain ⟨hs, ha⟩ := h.apart hin
    have hsubject : ¬ (nm = "NameID" ∧ s.path = subjectPath) := fun hp => hs (hp.2 ▸ by simp)
    have hattribute : ¬ (nm = "AttributeValue" ∧ s.path = attributePath) := fun hp =>
      ha (hp.2 ▸ by simp)
    have hstatement : ¬ (nm = "Attribute" ∧ s.path = statementPath) := fun hp =>
      ha (hp.2 ▸ by decide)
    rw [if_pos hin, leave, if_neg hsubject, if_neg hattribute, if_neg hstatement]
  · rw [if_neg hin]

/-- The text behind a node. -/
def textBehind (text : List Char) (n : Node) : List Char :=
  if isElement n then [] else text ++ characters n

mutual

/-- Away from the elements that make up the first assertion, a tree leaves only its text behind. -/
theorem Inert.run_node {s : State} (h : s.Inert) : ∀ n : Node,
    s.run (events n) = .ok { s with text := textBehind s.text n }
  | .element tag children => by
    rw [run_element, h.start, ok_bind, (h.opened _).run_nodes children]
    exact congrArg Except.ok (h.finishElement _ _)
  | .text content => s.run_plain rfl
  | .characterData content => s.run_plain rfl
  | .aside => s.run_plain rfl

theorem Inert.run_nodes {s : State} (h : s.Inert) : ∀ ns : List Node,
    s.run (eventsOf ns) = .ok { s with text := ns.foldl textBehind s.text }
  | [] => rfl
  | n :: ns => by
    have h' : ({ s with text := textBehind s.text n } : State).Inert := ⟨h.deep, h.apart⟩
    rw [eventsOf, run_append, h.run_node n, ok_bind, h'.run_nodes ns]
    rfl

end

theorem foldl_textBehind (ns : List Node) : ns.foldl textBehind [] = trailing ns := by
  induction ns using List.reverseRecOn with
  | nil => rfl
  | append_singleton ns n ih =>
    rw [List.foldl_concat, ih, textBehind]
    cases hn : isElement n with
    | true =>
      cases n with
      | element tag children =>
        rw [if_pos rfl, trailing_concat_element]
      | _ => cases hn
    | false => rw [if_neg Bool.false_ne_true, trailing_concat_plain ns hn]

/-- A child whose own children do not matter. -/
theorem run_leaf {s s' : State} {tag : Xml.Element} (he : s.enter tag (name tag) = .ok s')
    (hi : (s'.opened (name tag)).Inert) (children : List Node) :
    s.run (events (.element tag children)) =
      .ok (if s'.inFirst then ({ s' with text := [] } : State).leave (name tag) (trailing children)
        else { s' with text := [] }) := by
  rw [run_element, start_eq, he, ok_bind, ok_bind, hi.run_nodes children, ok_bind,
    finishElement_of_path s'.path (name tag) rfl]
  change Except.ok (if s'.inFirst then
    ({ s' with text := [] } : State).leave (name tag) (children.foldl textBehind [])
      else { s' with text := [] }) = _
  rw [foldl_textBehind]

end State
end ClaimMapping.Provider.Saml
