import ClaimMapping.Proofs.Xml.Event

namespace ClaimMapping.Xml

open Journal (bind_eq_ok_iff map_eq_ok_iff)

section Values

variable {text value rest : List Char} {a : Attribute}

theorem infix_of_takeValue (h : takeValue text = .ok (value, rest)) :
    value <:+: text ∧ rest <:+ text := by
  have hdrop : text.dropWhile isSpace <:+ text := List.dropWhile_suffix isSpace
  unfold takeValue at h
  split at h
  case h_1 => cases h
  case h_2 q behind hquote =>
    split_ifs at h
    split at h
    case h_1 hbreak =>
      cases h
      obtain ⟨-, rfl⟩ := Text.breakChar?_eq_some_iff.mp hbreak
      rw [hquote] at hdrop
      have hvalue : value <:+: q :: (value ++ q :: rest) := ⟨[q], q :: rest, by simp⟩
      have hrest : rest <:+ q :: (value ++ q :: rest) := ⟨q :: (value ++ [q]), by simp⟩
      exact ⟨hvalue.trans hdrop.isInfix, hrest.trans hdrop⟩
    case h_2 => cases h

theorem infix_of_takeAttribute {c : Char} (h : takeAttribute c text = .ok (a, rest)) :
    a.value <:+: text ∧ rest <:+ text := by
  rw [takeAttribute, List.span_eq_takeWhile_dropWhile] at h
  dsimp only at h
  split at h
  case h_1 behind hequals =>
    obtain ⟨⟨value, rest'⟩, hvalue, he⟩ := map_eq_ok_iff.mp h
    cases he
    have hname := List.dropWhile_suffix (l := text) fun x => x != '=' && !isSpace x
    have hspace := (List.dropWhile_suffix isSpace).trans hname
    rw [hequals] at hspace
    have hbehind : behind <:+ text := (List.suffix_cons '=' behind).trans hspace
    obtain ⟨hvalue, hrest⟩ := infix_of_takeValue hvalue
    exact ⟨hvalue.trans hbehind.isInfix, hrest.trans hbehind⟩
  case h_2 => cases h

theorem infix_of_mem_attributesUpTo {fuel : Nat} (h : a ∈ (attributesUpTo fuel text).found) :
    a.value <:+: text := by
  induction fuel generalizing text with
  | zero => simp [attributesUpTo] at h
  | succ fuel ih =>
    have hdrop : text.dropWhile isSpace <:+ text := List.dropWhile_suffix isSpace
    unfold attributesUpTo at h
    split at h
    case h_1 => simp at h
    case h_2 c behind hname =>
      rw [hname] at hdrop
      have hbehind : behind <:+ text := (List.suffix_cons c behind).trans hdrop
      split at h
      case h_1 => simp at h
      case h_2 first rest htake =>
        obtain ⟨hvalue, hrest⟩ := infix_of_takeAttribute htake
        rcases List.mem_cons.mp h with rfl | hmem
        · exact hvalue.trans hbehind.isInfix
        · exact (ih hmem).trans (hrest.trans hbehind).isInfix

end Values

/-- Every binding of the scope is written in the text. -/
def Scope.WrittenIn (text : List Char) (scope : Scope) : Prop := ∀ b ∈ scope, b.target <:+: text

/-- The namespace is always bound, or written in the text. -/
def IsBoundIn (text target : List Char) : Prop :=
  target = xmlNamespace ∨ target = xmlnsNamespace ∨ target <:+: text

section Bindings

variable {text : List Char} {scope scope' : Scope}

theorem Scope.WrittenIn.cons {b : Binding} (hb : b.target <:+: text) (h : scope.WrittenIn text) :
    Scope.WrittenIn text (b :: scope) := List.forall_mem_cons.mpr ⟨hb, h⟩

theorem Scope.WrittenIn.declare (h : scope.WrittenIn text) {a : Attribute}
    (ha : a.value <:+: text) (hd : scope.declare a = .ok scope') : scope'.WrittenIn text := by
  unfold Scope.declare at hd
  split at hd
  case h_1 =>
    cases hd
    exact h
  case h_2 =>
    split_ifs at hd
    all_goals
      cases hd
      exact .cons ha h
  case h_3 =>
    split_ifs at hd
    · cases hd
      exact h
    · cases hd
      exact .cons ha h

/-- The bindings of an element are written in its attributes, or in front. -/
theorem Scope.WrittenIn.enter (h : scope.WrittenIn text) {l : AttributeList}
    (hl : ∀ a ∈ l.found, a.value <:+: text) (he : scope.enter l = .ok scope') :
    scope'.WrittenIn text := by
  obtain ⟨found, defect⟩ := l
  unfold Scope.enter at he
  induction found generalizing scope with
  | nil =>
    cases he
    exact h
  | cons a found ih =>
    obtain ⟨ha, hfound⟩ := List.forall_mem_cons.mp hl
    rw [List.foldlM_cons] at he
    obtain ⟨inner, hd, he⟩ := bind_eq_ok_iff.mp he
    exact ih (h.declare ha hd) hfound he

/-- A namespace that a name resolves to is always bound, or written. -/
theorem Scope.WrittenIn.isBoundIn_of_resolve? (h : scope.WrittenIn text)
    {name target : List Char} (hr : scope.resolve? name = some target) :
    IsBoundIn text target := by
  unfold Scope.resolve? at hr
  dsimp only at hr
  split_ifs at hr with hxml hxmlns
  · cases hr
    exact .inl rfl
  · cases hr
    exact .inr (.inl rfl)
  · obtain ⟨b, hb, hr⟩ := Option.bind_eq_some_iff.mp hr
    split_ifs at hr
    cases hr
    exact .inr (.inr (h b (List.mem_of_find?_eq_some hb)))

end Bindings

/-- The namespace of the element that an event begins, if it has one. -/
def Event.IsBoundIn (text : List Char) (event : Event) : Prop :=
  ∀ e target, event = .start e → e.target = some target → Xml.IsBoundIn text target

section Reading

variable {text source : List Char} {opened opened' : List Open}

theorem Event.isBoundIn_of_forall_ne {event : Event} (h : ∀ e, event ≠ .start e) :
    event.IsBoundIn text :=
  fun e _ he => absurd he (h e)

theorem prefix_of_splitSlash (content : List Char) : (splitSlash content).1 <+: content := by
  unfold splitSlash
  split
  case h_1 rest hslash =>
    rw [← List.reverse_suffix, List.reverse_reverse, hslash]
    exact List.suffix_cons '/' rest
  case h_2 => exact List.prefix_refl content

theorem suffix_of_splitName (content : List Char) : (splitName content).2 <:+ content := by
  rw [splitName, List.span_eq_takeWhile_dropWhile]
  exact List.dropWhile_suffix _

theorem Scope.WrittenIn.innermost (h : ∀ o ∈ opened, o.scope.WrittenIn text) :
    (innermost opened).WrittenIn text := by
  cases opened with
  | nil => exact fun b hb => absurd hb List.not_mem_nil
  | cons o opened => exact h o List.mem_cons_self

/-- The namespace of an element is always bound, or written in its tag or in front of it. -/
theorem isBoundIn_of_tag {content : List Char} (ho : ∀ o ∈ opened, o.scope.WrittenIn text)
    (hc : content <:+: text) {es : List Event}
    (h : (Markup.tag content).events opened = .ok (es, opened')) :
    (∀ event ∈ es, event.IsBoundIn text) ∧ ∀ o ∈ opened', o.scope.WrittenIn text := by
  obtain ⟨scope, henter, h⟩ := bind_eq_ok_iff.mp h
  have hname := suffix_of_splitName (splitSlash content).1
  have hrest := hname.isInfix.trans ((prefix_of_splitSlash content).isInfix.trans hc)
  have hscope : scope.WrittenIn text := by
    refine (Scope.WrittenIn.innermost ho).enter (fun a ha => ?_) henter
    exact (infix_of_mem_attributesUpTo ha).trans hrest
  have hstart : Event.IsBoundIn text (.start ⟨(splitName (splitSlash content).1).1,
      scope.resolve? (splitName (splitSlash content).1).1,
      (splitName (splitSlash content).1).2⟩) := by
    intro e target he htarget
    cases he
    exact hscope.isBoundIn_of_resolve? htarget
  have hclose : Event.IsBoundIn text .close := Event.isBoundIn_of_forall_ne (by simp)
  dsimp only at h
  split_ifs at h
  · cases h
    exact ⟨List.forall_mem_cons.mpr ⟨hstart, List.forall_mem_singleton.mpr hclose⟩, ho⟩
  · cases h
    exact ⟨List.forall_mem_singleton.mpr hstart, List.forall_mem_cons.mpr ⟨hscope, ho⟩⟩

theorem isBoundIn_of_markup {m : Markup} (ho : ∀ o ∈ opened, o.scope.WrittenIn text)
    (hm : ∀ content, m = .tag content → content <:+: text) {es : List Event}
    (h : m.events opened = .ok (es, opened')) :
    (∀ event ∈ es, event.IsBoundIn text) ∧ ∀ o ∈ opened', o.scope.WrittenIn text := by
  have hother {event : Event} (hevent : ∀ e, event ≠ .start e) :
      ∀ event' ∈ [event], event'.IsBoundIn text :=
    List.forall_mem_singleton.mpr (Event.isBoundIn_of_forall_ne hevent)
  cases m with
  | tag content => exact isBoundIn_of_tag ho (hm content rfl) h
  | closing content =>
    unfold Markup.events at h
    dsimp only at h
    split at h
    case h_1 => cases h
    case h_2 o inner =>
      split_ifs at h
      cases h
      exact ⟨hother (by simp), (List.forall_mem_cons.mp ho).2⟩
  | characterData content | comment content | documentType content | instruction content =>
    cases h
    exact ⟨hother (by simp), ho⟩

theorem mem_events_afterText {next : Stream} {event : Event}
    (h : event ∈ (afterText source next).events) :
    (∃ content, event = .text content) ∨ event ∈ next.events := by
  unfold afterText at h
  split at h
  case h_1 => exact absurd h List.not_mem_nil
  case h_2 es htext =>
    rcases List.mem_append.mp h with hes | hnext
    · unfold textEvents at htext
      split at htext
      case h_1 =>
        cases htext
        exact absurd hes List.not_mem_nil
      case h_2 =>
        obtain ⟨content, -, rfl⟩ := map_eq_ok_iff.mp htext
        exact .inl ⟨content, List.mem_singleton.mp hes⟩
    · exact .inr hnext

/-- The markup ahead and everything behind it. -/
theorem mem_events_afterMarkup {next : List Open → List Char → Stream} {event : Event}
    (h : event ∈ (afterMarkup opened source next).events) :
    ∃ m rest es opened', takeMarkup source = .ok (m, rest) ∧ m.events opened = .ok (es, opened') ∧
      (event ∈ es ∨ event ∈ (next opened' rest).events) := by
  unfold afterMarkup at h
  split at h
  case h_1 => exact absurd h List.not_mem_nil
  case h_2 m rest htake =>
    split at h
    case h_1 => exact absurd h List.not_mem_nil
    case h_2 es opened' hevents =>
      exact ⟨m, rest, es, opened', htake, hevents, List.mem_append.mp h⟩

/-- The open scopes are written in the text, and what is still to be read is its end. -/
theorem isBoundIn_of_eventsUpTo {fuel : Nat} (ho : ∀ o ∈ opened, o.scope.WrittenIn text)
    (hsource : ∀ before after, Text.breakChar? '<' source = some (before, after) → after <:+ text) :
    ∀ event ∈ (eventsUpTo fuel opened source).events, event.IsBoundIn text := by
  induction fuel generalizing opened source with
  | zero => simp [eventsUpTo]
  | succ fuel ih =>
    intro event hevent
    have hplain (content : List Char) : Event.IsBoundIn text (.text content) :=
      Event.isBoundIn_of_forall_ne (by simp)
    by_cases hmem : '<' ∈ source
    · obtain ⟨before, after, rfl, hbefore⟩ := List.eq_append_cons_of_mem hmem
      have hafter : after <:+ text :=
        hsource before after (Text.breakChar?_eq_some_iff.mpr ⟨hbefore, rfl⟩)
      rw [eventsUpTo_markup hbefore] at hevent
      obtain ⟨content, rfl⟩ | hevent := mem_events_afterText hevent
      · exact hplain content
      · obtain ⟨m, rest, es, inner, htake, hes, hevent⟩ := mem_events_afterMarkup hevent
        have hrest : rest <:+ text := (suffix_of_takeMarkup htake).trans hafter
        have htag : ∀ content, m = .tag content → content <:+: text := by
          rintro content rfl
          exact (infix_of_takeMarkup_tag htake).trans hafter.isInfix
        obtain ⟨hstarts, hinner⟩ := isBoundIn_of_markup ho htag hes
        rcases hevent with hevent | hevent
        · exact hstarts event hevent
        · refine ih hinner (fun before' after' hbreak => ?_) event hevent
          obtain ⟨-, rfl⟩ := Text.breakChar?_eq_some_iff.mp hbreak
          exact ((List.suffix_cons '<' after').trans (List.suffix_append _ _)).trans hrest
    · rw [eventsUpTo_text hmem] at hevent
      obtain ⟨content, rfl⟩ | hevent := mem_events_afterText hevent
      · exact hplain content
      · exact absurd hevent List.not_mem_nil

end Reading

theorem skipMark_cases (source : List Char) :
    skipMark source = source ∨ source = '\uFEFF' :: skipMark source := by
  unfold skipMark
  split
  case h_1 => exact .inr rfl
  case h_2 => exact .inl rfl

/-- An element whose namespace is not always bound has it from behind the first `<`. -/
theorem isBoundIn_of_mem_events {source : List Char} {e : Element}
    (h : .start e ∈ (events source).events) {target : List Char} (ht : e.target = some target) :
    ∃ before after, source = before ++ '<' :: after ∧ '<' ∉ before ∧ IsBoundIn after target := by
  by_cases hmem : '<' ∈ skipMark source
  · obtain ⟨before, after, hsplit, hbefore⟩ := List.eq_append_cons_of_mem hmem
    have hfirst : ∀ before' after', Text.breakChar? '<' (skipMark source) = some (before', after') →
        after' <:+ after := by
      intro before' after' hbreak
      rw [hsplit, Text.breakChar?_eq_some_iff.mpr ⟨hbefore, rfl⟩] at hbreak
      cases hbreak
      exact List.suffix_refl after
    have hbound : IsBoundIn after target :=
      isBoundIn_of_eventsUpTo (by simp) hfirst _ h e target rfl ht
    obtain hmark | hmark := skipMark_cases source
    · exact ⟨before, after, by rw [← hsplit, hmark], hbefore, hbound⟩
    · refine ⟨'\uFEFF' :: before, after, by rw [hmark, hsplit, List.cons_append], ?_, hbound⟩
      simpa using hbefore
  · rw [events, eventsUpTo_text hmem] at h
    obtain ⟨content, he⟩ | h := mem_events_afterText h
    · cases he
    · exact absurd h List.not_mem_nil

end ClaimMapping.Xml
