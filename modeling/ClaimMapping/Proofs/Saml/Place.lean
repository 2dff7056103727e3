import ClaimMapping.Proofs.Saml.Forest

namespace ClaimMapping.Provider.Saml

open Xml (levelBehind? levelBehind?_append)

def isTag : Xml.Event → Bool
  | .start _ | .close => true
  | _ => false

def charactersOf : Xml.Event → List Char
  | .text content | .characterData content => content
  | _ => []

/-- The text and character data behind the last start or end of an element. -/
def lastText (es : List Xml.Event) : List Char :=
  (es.rtakeWhile fun e => !isTag e).flatMap charactersOf

/-- The elements that begin, each with its depth, when `level` elements are open in front. -/
def begun : (level : Nat) → List Xml.Event → List (Nat × Xml.Element)
  | _, [] => []
  | level, .start tag :: es => (level + 1, tag) :: begun (level + 1) es
  | level, .close :: es => begun (level - 1) es
  | level, _ :: es => begun level es

/-- How many assertions have begun at depth two. -/
def assertionsBegun (es : List Xml.Event) : Nat :=
  (begun 0 es).countP fun e => e.1 == 2 && name e.2 == "Assertion"

/-- An open element, and the nodes in front of it inside the element around it. -/
abbrev Frame := List Node × Xml.Element

/-- The local names of open elements, the root first. -/
def openPath (opened : List Frame) : List String := (opened.map fun o => name o.2).reverse

/-- An assertion is open below the root, and no other one has begun in front of it. -/
def WithinFirst (opened : List Frame) : Prop :=
  ∃ inner front tag root, opened = inner ++ [(front, tag), root] ∧ name tag = "Assertion" ∧
    assertionsBegun (eventsWithin [root] front) = 0

/-- The attribute of the first assertion that is open at a place, and its complete children. -/
inductive IsOpenAttribute : List Frame → List Node → Xml.Element → List Node → Prop where
  | innermost {outer : List Frame} {tag : Xml.Element} (within : WithinFirst outer)
      (path : openPath outer = ["Response", "Assertion", "AttributeStatement"])
      (is_attribute : name tag = "Attribute") (before children : List Node) :
      IsOpenAttribute ((before, tag) :: outer) children tag children
  | around {outer : List Frame} {before children : List Node} {tag : Xml.Element}
      (h : IsOpenAttribute outer before tag children) (inner : Xml.Element) (ns : List Node) :
      IsOpenAttribute ((before, inner) :: outer) ns tag children

theorem lastText_concat_of_isTag (es : List Xml.Event) {e : Xml.Event} (h : isTag e = true) :
    lastText (es ++ [e]) = [] := by
  rw [lastText, List.rtakeWhile_concat_neg _ _ _ (by simp [h])]
  rfl

theorem lastText_concat (es : List Xml.Event) {e : Xml.Event} (h : isTag e = false) :
    lastText (es ++ [e]) = lastText es ++ charactersOf e := by
  rw [lastText, List.rtakeWhile_concat_pos _ _ _ (by simp [h]), List.flatMap_append]
  simp [lastText]

theorem lastText_concat_plain (es : List Xml.Event) {n : Node} (h : isElement n = false) :
    lastText (es ++ events n) = lastText es ++ characters n := by
  cases n with
  | element => cases h
  | text content => exact lastText_concat es rfl
  | characterData content => exact lastText_concat es rfl
  | aside => exact lastText_concat es rfl

/-- Behind the start of an element the last text is that of the content of the element. -/
theorem lastText_start_append (es : List Xml.Event) (tag : Xml.Element) (ns : List Node) :
    lastText (es ++ .start tag :: eventsOf ns) = trailing ns := by
  induction ns using List.reverseRecOn with
  | nil => exact lastText_concat_of_isTag es rfl
  | append_singleton ns n ih =>
    rw [eventsOf_append, eventsOf_singleton, ← List.cons_append, ← List.append_assoc]
    by_cases hn : isElement n = true
    · cases n with
      | element inner children =>
        rw [trailing_concat_element, events, ← List.cons_append, ← List.append_assoc]
        exact lastText_concat_of_isTag _ rfl
      | _ => cases hn
    · rw [Bool.not_eq_true] at hn
      rw [lastText_concat_plain _ hn, ih, trailing_concat_plain ns hn]

/-- At a place, the last text is what follows the last element in front of it. -/
theorem lastText_within (before : List Node) (tag : Xml.Element) (outer : List Frame)
    (ns : List Node) : lastText (eventsWithin ((before, tag) :: outer) ns) = trailing ns :=
  lastText_start_append (eventsWithin outer before) tag ns

mutual

theorem levelBehind?_node (level : Nat) : ∀ n : Node, levelBehind? level (events n) = some level
  | .element tag children => by
    have hchildren := levelBehind?_eventsOf (level + 1) children
    change levelBehind? (level + 1) (eventsOf children ++ [.close]) = some level
    rw [levelBehind?_append, hchildren]
    rfl
  | .text _ => rfl
  | .characterData _ => rfl
  | .aside => rfl

theorem levelBehind?_eventsOf (level : Nat) : ∀ ns : List Node,
    levelBehind? level (eventsOf ns) = some level
  | [] => rfl
  | n :: ns => by
    rw [eventsOf, levelBehind?_append, levelBehind?_node level n, Option.bind_some,
      levelBehind?_eventsOf level ns]

end

/-- At a place, the level is the number of open elements. -/
theorem levelBehind?_eventsWithin (level : Nat) (opened : List Frame) (ns : List Node) :
    levelBehind? level (eventsWithin opened ns) = some (level + opened.length) := by
  induction opened generalizing ns with
  | nil => exact levelBehind?_eventsOf level ns
  | cons o outer ih =>
    obtain ⟨before, tag⟩ := o
    rw [eventsWithin, levelBehind?_append, ih, Option.bind_some]
    exact levelBehind?_eventsOf (level + outer.length + 1) ns

theorem begun_append {level behind : Nat} {es : List Xml.Event}
    (h : levelBehind? level es = some behind) (fs : List Xml.Event) :
    begun level (es ++ fs) = begun level es ++ begun behind fs := by
  induction es generalizing level with
  | nil =>
    cases h
    rfl
  | cons e es ih =>
    cases e with
    | start tag => exact congrArg ((level + 1, tag) :: ·) (ih h)
    | close =>
      cases level with
      | zero => cases h
      | succ level => exact ih h
    | _ => exact ih h

/-- What begins inside is deeper than what is open around it. -/
theorem lt_of_mem_begun {level behind : Nat} {es : List Xml.Event}
    (h : levelBehind? level es = some behind) (depth : Nat) :
    ∀ e ∈ begun (depth + level) es, depth < e.1 := by
  induction es generalizing level with
  | nil =>
    intro e he
    cases he
  | cons event es ih =>
    cases event with
    | start tag =>
      refine List.forall_mem_cons.mpr ⟨?_, ih h⟩
      change depth < depth + level + 1
      omega
    | close =>
      cases level with
      | zero => cases h
      | succ level => exact ih h
    | _ => exact ih h

/-- A start tag begins an assertion when it stands right below a root and has that name. -/
theorem assertionsBegun_start (opened : List Frame) (ns : List Node) (tag : Xml.Element) :
    assertionsBegun (eventsWithin opened ns ++ [.start tag]) =
      assertionsBegun (eventsWithin opened ns) +
        if opened.length = 1 ∧ name tag = "Assertion" then 1 else 0 := by
  rw [assertionsBegun, begun_append (levelBehind?_eventsWithin 0 opened ns), List.countP_append]
  simp [begun, List.countP_cons, assertionsBegun]

theorem assertionsBegun_concat (opened : List Frame) (ns : List Node) {e : Xml.Event}
    (h : ∀ tag, e ≠ .start tag) :
    assertionsBegun (eventsWithin opened ns ++ [e]) = assertionsBegun (eventsWithin opened ns) := by
  have hnone (level : Nat) : begun level [e] = [] := by
    cases e with
    | start tag => exact absurd rfl (h tag)
    | _ => rfl
  rw [assertionsBegun, begun_append (levelBehind?_eventsWithin 0 opened ns), hnone, List.append_nil]
  rfl

theorem eventsWithin_append (inner : List Frame) (before : List Node) (tag : Xml.Element)
    (outer : List Frame) (ns : List Node) :
    eventsWithin (inner ++ (before, tag) :: outer) ns =
      eventsWithin outer before ++ .start tag :: eventsWithin inner ns := by
  induction inner generalizing ns with
  | nil => rfl
  | cons o inner ih =>
    obtain ⟨front, t⟩ := o
    rw [List.cons_append, eventsWithin, ih, eventsWithin, List.append_assoc, List.cons_append]

/-- Inside an element below the root no other assertion begins. -/
theorem assertionsBegun_append (inner : List Frame) (front : List Node) (tag : Xml.Element)
    (root : Frame) (ns : List Node) :
    assertionsBegun (eventsWithin (inner ++ [(front, tag), root]) ns) =
      assertionsBegun (eventsWithin [root] front) + if name tag = "Assertion" then 1 else 0 := by
  have hdeep : (begun 2 (eventsWithin inner ns)).countP
      (fun e => e.1 == 2 && name e.2 == "Assertion") = 0 := by
    refine List.countP_eq_zero.mpr fun e he => ?_
    have hlt := lt_of_mem_begun (levelBehind?_eventsWithin 0 inner ns) 2 e he
    have hne : e.1 ≠ 2 := by omega
    simp [hne]
  have hlevel : levelBehind? 0 (eventsWithin [root] front ++ [.start tag]) = some 2 := by
    rw [levelBehind?_append, levelBehind?_eventsWithin]
    rfl
  have hstart := assertionsBegun_start [root] front tag
  simp only [List.length_singleton, true_and] at hstart
  rw [eventsWithin_append, List.append_cons, assertionsBegun, begun_append hlevel,
    List.countP_append, hdeep, Nat.add_zero]
  exact hstart

theorem openPath_cons (o : Frame) (opened : List Frame) :
    openPath (o :: opened) = openPath opened ++ [name o.2] := by
  simp [openPath]

theorem openPath_append (inner : List Frame) (o root : Frame) :
    openPath (inner ++ [o, root]) = name root.2 :: name o.2 :: openPath inner := by
  simp [openPath]

theorem length_openPath (opened : List Frame) : (openPath opened).length = opened.length := by
  simp [openPath]

/-- The elements that are open below the root, if there are any. -/
theorem exists_below_root {opened : List Frame} {nm : String}
    (h : (openPath opened)[1]? = some nm) :
    ∃ inner front tag root, opened = inner ++ [(front, tag), root] ∧ name tag = nm := by
  obtain rfl | ⟨opened, root, rfl⟩ := opened.eq_nil_or_concat'
  · cases h
  obtain rfl | ⟨inner, o, rfl⟩ := opened.eq_nil_or_concat'
  · cases h
  rw [List.append_assoc] at h ⊢
  change (openPath (inner ++ [o, root]))[1]? = some nm at h
  rw [openPath_append] at h
  exact ⟨inner, o.1, o.2, root, rfl, Option.some.inj h⟩

/-- The open assertion is the first one when no other has begun up to any place inside. -/
theorem withinFirst_iff (inner outer : List Frame) (ns : List Node) :
    WithinFirst outer ↔ assertionsBegun (eventsWithin (inner ++ outer) ns) = 1 ∧
      (openPath outer)[1]? = some "Assertion" := by
  constructor
  · rintro ⟨between, front, tag, root, rfl, hname, hnone⟩
    rw [← List.append_assoc, assertionsBegun_append, hnone, if_pos hname, openPath_append, hname]
    exact ⟨rfl, rfl⟩
  · rintro ⟨hone, hpath⟩
    obtain ⟨between, front, tag, root, rfl, hname⟩ := exists_below_root hpath
    rw [← List.append_assoc, assertionsBegun_append, if_pos hname] at hone
    exact ⟨between, front, tag, root, rfl, hname, Nat.succ.inj hone⟩

theorem WithinFirst.of_cons {o : Frame} {outer : List Frame} (h : WithinFirst (o :: outer))
    (hlength : 2 ≤ outer.length) : WithinFirst outer := by
  obtain ⟨inner, front, tag, root, heq, hname, hnone⟩ := h
  cases inner with
  | nil =>
    cases heq
    simp at hlength
  | cons _ inner =>
    obtain ⟨-, rfl⟩ := List.cons.inj heq
    exact ⟨inner, front, tag, root, rfl, hname, hnone⟩

theorem WithinFirst.cons {outer : List Frame} (h : WithinFirst outer) (o : Frame) :
    WithinFirst (o :: outer) := by
  obtain ⟨inner, front, tag, root, rfl, hname, hnone⟩ := h
  exact ⟨o :: inner, front, tag, root, rfl, hname, hnone⟩

section Attribute

variable {opened outer : List Frame} {before ns children : List Node} {tag : Xml.Element}

theorem IsOpenAttribute.lt_length (h : IsOpenAttribute opened ns tag children) :
    3 < opened.length := by
  induction h with
  | @innermost outer tag _ path _ before children =>
    have hlength : outer.length = 3 := by
      rw [← length_openPath, path]
      rfl
    rw [List.length_cons, hlength]
    decide
  | around _ _ _ ih =>
    rw [List.length_cons]
    omega

theorem not_isOpenAttribute (h : openPath opened = State.statementPath) :
    ¬ IsOpenAttribute opened ns tag children := by
  intro hopen
  have hlt := hopen.lt_length
  rw [← length_openPath, h] at hlt
  exact absurd hlt (by decide)

/-- An attribute is open exactly when the path begins with one in the first assertion. -/
theorem exists_isOpenAttribute_iff :
    (∃ tag children, IsOpenAttribute opened ns tag children) ↔
      State.attributePath <+: openPath opened ∧ WithinFirst opened := by
  constructor
  · rintro ⟨tag, children, h⟩
    induction h with
    | innermost within path is_attribute before children =>
      rw [openPath_cons, path, is_attribute]
      exact ⟨List.prefix_rfl, within.cons _⟩
    | around _ inner ns ih =>
      rw [openPath_cons]
      exact ⟨ih.1.trans (List.prefix_append _ _), ih.2.cons _⟩
  · rintro ⟨hpath, hfirst⟩
    induction opened generalizing ns with
    | nil => exact absurd hpath (by decide)
    | cons o outer ih =>
      obtain ⟨before, tag⟩ := o
      rw [openPath_cons, List.prefix_concat_iff] at hpath
      obtain heq | houter := hpath
      · have hsplit : State.statementPath ++ ["Attribute"] = openPath outer ++ [name tag] := heq
        obtain ⟨hstatement, hname⟩ := List.append_inj' hsplit rfl
        have hlength : 2 ≤ outer.length := by
          rw [← length_openPath, ← hstatement]
          decide
        exact ⟨tag, ns, .innermost (hfirst.of_cons hlength) hstatement.symm
          (List.singleton_inj.mp hname).symm before ns⟩
      · have hlength := houter.length_le
        rw [length_openPath] at hlength
        have htwo : 2 ≤ outer.length := le_trans (by decide) hlength
        have hinner : ∃ t children, IsOpenAttribute outer before t children :=
          ih houter (hfirst.of_cons htwo)
        obtain ⟨t, children, h⟩ := hinner
        exact ⟨t, children, .around h tag ns⟩

end Attribute

/-- Each place is reached from the empty one through places that are one event earlier. -/
theorem place_induction {motive : List Frame → List Node → Prop} (initial : motive [] [])
    (start : ∀ opened ns tag, motive opened ns → motive ((ns, tag) :: opened) [])
    (close : ∀ outer before tag ns, motive ((before, tag) :: outer) ns →
      motive outer (before ++ [.element tag ns]))
    (plain : ∀ opened ns n, isElement n = false → motive opened ns → motive opened (ns ++ [n]))
    (opened : List Frame) (ns : List Node) : motive opened ns := by
  induction hlength : (eventsWithin opened ns).length using Nat.strong_induction_on
    generalizing opened ns with
  | _ length ih =>
    subst hlength
    obtain rfl | ⟨before, n, rfl⟩ := ns.eq_nil_or_concat'
    · cases opened with
      | nil => exact initial
      | cons o outer =>
        obtain ⟨before, tag⟩ := o
        refine start outer before tag (ih _ ?_ outer before rfl)
        simp [eventsWithin]
    · by_cases hn : isElement n = true
      · cases n with
        | element tag children =>
          refine close opened before tag children (ih _ ?_ ((before, tag) :: opened) children rfl)
          rw [eventsWithin_close, List.length_append]
          exact Nat.lt_succ_self _
        | _ => cases hn
      · rw [Bool.not_eq_true] at hn
        refine plain opened before n hn (ih _ ?_ opened before rfl)
        cases n with
        | element => cases hn
        | _ => simp [eventsWithin_concat, events]

end ClaimMapping.Provider.Saml
