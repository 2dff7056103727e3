import ClaimMapping.Proofs.Journal.Outcome
import ClaimMapping.Proofs.Text.Search
import ClaimMapping.Xml.Markup

namespace ClaimMapping.Xml

/-- The text is one whole piece of markup, without its `<`. -/
def Writes (raw : List Char) (m : Markup) : Prop := ∀ rest, takeMarkup (raw ++ rest) = .ok (m, rest)

/-- A scan from a state to a `>`: at each character it stops, or goes on in a state that only the
characters so far determine. -/
structure Scans {σ : Type} (scan : σ → List Char → Option (List Char × List Char)) : Prop where
  nil : ∀ s, scan s [] = none
  cons : ∀ s c, (c = '>' ∧ ∀ rest, scan s (c :: rest) = some ([], rest)) ∨
    ∃ next, ∀ rest, scan s (c :: rest) = (scan next rest).map fun found => (c :: found.1, found.2)

/-- What is scanned ends with its `>`, and is the same whatever stands behind it. -/
theorem Scans.append {σ : Type} {scan : σ → List Char → Option (List Char × List Char)}
    (hscan : Scans scan) {s : σ} {text content rest : List Char}
    (h : scan s text = some (content, rest)) :
    text = content ++ '>' :: rest ∧
      ∀ other, scan s (content ++ '>' :: other) = some (content, other) := by
  induction text generalizing s content with
  | nil =>
    rw [hscan.nil] at h
    cases h
  | cons c text ih =>
    obtain ⟨rfl, hstop⟩ | ⟨next, hnext⟩ := hscan.cons s c
    · rw [hstop] at h
      cases h
      exact ⟨rfl, hstop⟩
    · rw [hnext] at h
      obtain ⟨⟨content', rest'⟩, hrest, he⟩ := Option.map_eq_some_iff.mp h
      cases he
      obtain ⟨htext, hother⟩ := ih hrest
      refine ⟨by rw [htext, List.cons_append], fun other => ?_⟩
      rw [List.cons_append, hnext, hother]
      rfl

/-- The quote that is open behind a character. -/
def quoteAfter (quote : Option Char) (c : Char) : Option Char :=
  match quote with
  | some q => if c = q then none else some q
  | none => if c = '"' ∨ c = '\'' then some c else none

theorem scans_takeTag : Scans takeTag where
  nil quote := by cases quote <;> rfl
  cons quote c := by
    cases quote with
    | none =>
      by_cases hc : c = '>'
      · subst hc
        exact .inl ⟨rfl, fun rest => rfl⟩
      · exact .inr ⟨quoteAfter none c, fun rest => by simp [takeTag, quoteAfter, hc]⟩
    | some q => exact .inr ⟨quoteAfter (some q) c, fun rest => by simp [takeTag, quoteAfter]⟩

theorem scans_takeBalanced : Scans takeBalanced where
  nil depth := by cases depth <;> rfl
  cons depth c := by
    by_cases hc : c = '>'
    · subst hc
      cases depth with
      | zero => exact .inl ⟨rfl, fun rest => rfl⟩
      | succ depth => exact .inr ⟨depth, fun rest => rfl⟩
    · refine .inr ⟨if c = '<' then depth + 1 else depth, fun rest => ?_⟩
      rw [takeBalanced]
      · intro _ h
        exact hc h
      · intro _ _ h
        exact hc h

variable {text rest : List Char} {m : Markup}

theorem writes_of_takeDelimited {stop : List Char} {make : List Char → Markup} {unclosed : Defect}
    (h : takeDelimited stop make unclosed text = .ok (m, rest)) :
    ∃ content, text = content ++ (stop ++ rest) ∧ ∀ other,
      takeDelimited stop make unclosed (content ++ (stop ++ other)) = .ok (m, other) := by
  unfold takeDelimited at h
  split at h
  case h_1 content rest' hbreak =>
    cases h
    obtain ⟨htext, hother⟩ := Text.breakAt?_append hbreak
    refine ⟨content, htext, fun other => ?_⟩
    rw [takeDelimited, hother]
  case h_2 => cases h

theorem writes_of_takeDocumentType (h : takeDocumentType text = .ok (m, rest)) :
    ∃ content, text = content ++ '>' :: rest ∧ ∀ other,
      takeDocumentType (content ++ '>' :: other) = .ok (m, other) := by
  unfold takeDocumentType at h
  split at h
  case h_1 => cases h
  case h_2 content rest' hbalanced =>
    obtain ⟨htext, hother⟩ := scans_takeBalanced.append hbalanced
    split_ifs at h with hname hblank
    cases h
    refine ⟨content, htext, fun other => ?_⟩
    rw [takeDocumentType, hother]
    simp only [hname, hblank, if_true]
    rfl

/-- A tag has none of the characters in front that begin other markup. -/
theorem takeMarkup_tag {c : Char} (hc : c ≠ '!' ∧ c ≠ '?' ∧ c ≠ '/') {content : List Char}
    (h : takeTag none (c :: text) = some (content, rest)) :
    takeMarkup (c :: text) = .ok (.tag content, rest) := by
  obtain ⟨hbang, hquestion, hslash⟩ := hc
  rw [takeMarkup, h]
  all_goals simp_all

/-- A piece of markup is written by the text that was taken for it. -/
theorem exists_writes_of_takeMarkup (h : takeMarkup text = .ok (m, rest)) :
    ∃ raw, text = raw ++ rest ∧ Writes raw m := by
  unfold takeMarkup at h
  split at h
  case h_1 text =>
    obtain ⟨content, rfl, hother⟩ := writes_of_takeDelimited h
    refine ⟨'!' :: '-' :: '-' :: (content ++ ['-', '-', '>']), by simp, fun other => ?_⟩
    simpa [takeMarkup] using hother other
  case h_2 text =>
    obtain ⟨content, rfl, hother⟩ := writes_of_takeDelimited h
    refine ⟨"![CDATA[".toList ++ (content ++ [']', ']', '>']), by simp, fun other => ?_⟩
    simpa [takeMarkup] using hother other
  case h_3 text =>
    obtain ⟨content, htext, hother⟩ := writes_of_takeDocumentType h
    refine ⟨'!' :: (content ++ ['>']), by simp [htext], fun other => ?_⟩
    cases content with
    | nil => simp at htext
    | cons c content =>
      obtain ⟨rfl, -⟩ := List.cons.inj htext
      simpa [takeMarkup] using hother other
  case h_4 text =>
    obtain ⟨content, htext, hother⟩ := writes_of_takeDocumentType h
    refine ⟨'!' :: (content ++ ['>']), by simp [htext], fun other => ?_⟩
    cases content with
    | nil => simp at htext
    | cons c content =>
      obtain ⟨rfl, -⟩ := List.cons.inj htext
      simpa [takeMarkup] using hother other
  case h_5 => cases h
  case h_6 => cases h
  case h_7 text hclosed =>
    obtain ⟨content, rfl, hother⟩ := writes_of_takeDelimited h
    refine ⟨'?' :: (content ++ ['?', '>']), by simp, fun other => ?_⟩
    cases content with
    | nil => simpa [takeMarkup] using hother other
    | cons c content =>
      have hc : c ≠ '>' := by
        rintro rfl
        exact hclosed _ rfl
      simpa [takeMarkup, hc] using hother other
  case h_8 text =>
    split at h
    case h_1 content rest' htag =>
      cases h
      obtain ⟨rfl, hother⟩ := scans_takeTag.append htag
      refine ⟨'/' :: (content ++ ['>']), by simp, fun other => ?_⟩
      simp [takeMarkup, hother]
    case h_2 => cases h
  case h_9 hbang hclosed hquestion hslash =>
    -- what begins none of the other pieces still begins none with another text behind it
    split at h
    case h_1 content rest' htag =>
      cases h
      obtain ⟨rfl, hother⟩ := scans_takeTag.append htag
      refine ⟨content ++ ['>'], by simp, fun other => ?_⟩
      rw [List.append_assoc, List.singleton_append]
      cases content with
      | nil => exact takeMarkup_tag (by decide) (hother other)
      | cons c content =>
        refine takeMarkup_tag ⟨?_, ?_, ?_⟩ (hother other)
        · rintro rfl
          exact hbang _ rfl
        · rintro rfl
          exact hquestion _ rfl
        · rintro rfl
          exact hslash _ rfl
    case h_2 => cases h

theorem suffix_of_takeMarkup (h : takeMarkup text = .ok (m, rest)) : rest <:+ text := by
  obtain ⟨raw, rfl, -⟩ := exists_writes_of_takeMarkup h
  exact List.suffix_append raw rest

/-- A tag is read from the text as it stands. -/
theorem infix_of_takeMarkup_tag {content : List Char}
    (h : takeMarkup text = .ok (.tag content, rest)) : content <:+: text := by
  unfold takeMarkup at h
  split at h
  case h_9 =>
    split at h
    case h_1 htag =>
      cases h
      obtain ⟨rfl, -⟩ := scans_takeTag.append htag
      exact (List.prefix_append content _).isInfix
    case h_2 => cases h
  case h_1 | h_2 | h_7 =>
    unfold takeDelimited at h
    split at h <;> cases h
  case h_3 | h_4 =>
    unfold takeDocumentType at h
    split at h
    · cases h
    · split_ifs at h
      cases h
  case h_5 | h_6 => cases h
  case h_8 => split at h <;> cases h

/-- What a comment may hold: no two hyphens together, and none at the end. -/
def IsCommentBody (body : List Char) : Prop := ¬ ['-', '-'] <:+: body ++ ['-']

instance (body : List Char) : Decidable (IsCommentBody body) :=
  inferInstanceAs (Decidable (¬ ['-', '-'] <:+: body ++ ['-']))

/-- A comment behind its body, with the characters that delimit it. -/
def comment (body : List Char) : List Char := '<' :: '!' :: '-' :: '-' :: (body ++ ['-', '-', '>'])

/-- A comment is one piece of markup when its body does not end it. -/
theorem writes_comment {body : List Char} (h : IsCommentBody body) :
    Writes ('!' :: '-' :: '-' :: (body ++ ['-', '-', '>'])) (.comment body) := by
  intro rest
  have hcut : Text.breakAt? ['-', '-', '>'] (body ++ (['-', '-', '>'] ++ rest)) =
      some (body, rest) := by
    refine Text.breakAt?_eq_some_iff.mpr ⟨rfl, fun x y hxy => ?_⟩
    by_contra hlt
    have hshort : (x ++ ['-', '-']).length ≤ (body ++ ['-']).length := by
      simp only [List.length_append, List.length_cons, List.length_nil]
      omega
    have hfront : x ++ ['-', '-'] <+: body ++ ['-'] := by
      refine List.prefix_of_prefix_length_le ?_ (List.prefix_append _ ('-' :: '>' :: rest)) hshort
      exact ⟨'>' :: y, by simpa using hxy.symm⟩
    exact h ((List.suffix_append x _).isInfix.trans hfront.isInfix)
  have htake : takeMarkup ('!' :: '-' :: '-' :: (body ++ (['-', '-', '>'] ++ rest))) =
      .ok (.comment body, rest) := by
    rw [takeMarkup, takeDelimited, hcut]
  simpa using htake

end ClaimMapping.Xml
