import ClaimMapping.Proofs.Template

namespace ClaimMapping.Template

/-- A group takes what lies between two places of the text. -/
theorem group?_infix {r : Regex} {index : Nat} {text found : List Char}
    (h : r.group? index text = some found) : found <:+: text := by
  obtain ⟨slots, -, h⟩ := Option.bind_eq_some_iff.mp h
  obtain ⟨first, -, h⟩ := Option.bind_eq_some_iff.mp h
  obtain ⟨last, -, h⟩ := Option.bind_eq_some_iff.mp h
  have hfound : (text.drop first).take (last - first) = found := Option.some.inj h
  have hprefix : found <+: text.drop first := hfound ▸ List.take_prefix _ _
  exact hprefix.isInfix.trans (List.drop_suffix first text).isInfix

section

variable {fits : Regex → Bool}

theorem capture?_infix {pattern source found : List Char}
    (h : capture? fits pattern source = some found) : found <:+: source := by
  obtain ⟨r, -, hgroup⟩ := Option.bind_eq_some_iff.mp h
  exact group?_infix hgroup

theorem isPrefix_cutBefore (stop text : List Char) : cutBefore stop text <+: text := by
  unfold cutBefore
  split
  case h_1 c before rest hbreak =>
    have htext : text = c :: before ++ (stop ++ rest) := (Text.breakAt?_eq_some_iff.mp hbreak).1
    rw [htext]
    exact List.prefix_append _ _
  case h_2 => exact List.prefix_rfl

/-- What every template selects is a piece of the source. -/
theorem extractText_infix (source template : List Char) :
    extractText fits source template <:+: source := by
  have hnil : [] <:+: source := List.nil_infix
  unfold extractText
  cases placeholder? template with
  | none => exact hnil
  | some name =>
    dsimp only
    by_cases hwhole : (Text.startsWith name template && Text.endsWith name template) = true
    · rw [if_pos hwhole]
    rw [if_neg hwhole]
    cases hcapture : capture? fits (Text.replace name anyText template) source with
    | none => exact hnil
    | some found =>
      have hfound : found <:+: source := capture?_infix hcapture
      dsimp only
      split_ifs
      · exact hfound
      · exact (isPrefix_cutBefore (ending template) found).isInfix.trans hfound

theorem extract_between (source template : String) :
    ∃ before after : String, source = before ++ extract source template fits ++ after := by
  obtain ⟨before, after, h⟩ := extractText_infix source.toList template.toList
  refine ⟨String.ofList before, String.ofList after, ?_⟩
  rw [extract, ← String.ofList_append, ← String.ofList_append, h, String.ofList_toList]

/-- What can stand between the braces of a placeholder. -/
structure IsName (name : List Char) : Prop where
  ne_nil : name ≠ []
  chars : ∀ c ∈ name, isNameChar c

/-- With any regular expression around it, a placeholder selects the same whatever it is called. -/
theorem extractText_renamed {front back name other : List Char} (hfront : IsBraceless front)
    (hback : IsBraceless back) (hname : IsName name) (hother : IsName other)
    (source : List Char) :
    extractText fits source (literal front name back) =
      extractText fits source (literal front other back) := by
  by_cases hne : front ++ back = []
  · obtain ⟨rfl, rfl⟩ := List.append_eq_nil_iff.mp hne
    rw [extractText_nil hname.ne_nil hname.chars, extractText_nil hother.ne_nil hother.chars]
  · rw [extractText_literal hfront hback hname.ne_nil hname.chars hne,
      extractText_literal hfront hback hother.ne_nil hother.chars hne]

/-- Templates that differ in the name of the placeholder select the same, and what they select
stands in the source, between the text before it and the text behind it. -/
theorem extract_renamed {front back name other : List Char} (hfront : IsBraceless front)
    (hback : IsBraceless back) (hname : IsName name) (hother : IsName other) (source : String) :
    extract source (String.ofList (literal front name back)) fits =
        extract source (String.ofList (literal front other back)) fits ∧
      ∃ before after : String,
        source =
          before ++ extract source (String.ofList (literal front name back)) fits ++ after := by
  constructor
  · simp only [extract, String.toList_ofList]
    rw [extractText_renamed hfront hback hname hother]
  · exact extract_between _ _

end

/-- The text in front has a group of its own, which is the one that counts. -/
theorem extract_ownGroup :
    extract "id-é9/x" "i(.)-.\x7ba\x7d/" = extract "id-é9/x" "i(.)-.\x7bB-1_\x7d/" ∧
      extract "id-é9/x" "i(.)-.\x7ba\x7d/" = "d" ∧
      ∃ before after : String,
        "id-é9/x" = before ++ extract "id-é9/x" "i(.)-.\x7ba\x7d/" ++ after := by
  have hfront : IsBraceless ['i', '(', '.', ')', '-', '.'] := ⟨by decide, by decide⟩
  have hback : IsBraceless ['/'] := ⟨by decide, by decide⟩
  have hname : IsName ['a'] := ⟨by simp, by simp [isNameChar]⟩
  have hother : IsName ['B', '-', '1', '_'] := ⟨by simp, by simp [isNameChar]⟩
  obtain ⟨same, within⟩ := extract_renamed hfront hback hname hother "id-é9/x"
  exact ⟨same, by decide +kernel, within⟩

end ClaimMapping.Template
