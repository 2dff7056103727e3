import ClaimMapping.Template
import ClaimMapping.Proofs.Regex.Capture
import Mathlib

namespace ClaimMapping.Template

/-- A placeholder between two texts. -/
def literal (front name back : List Char) : List Char := front ++ ('\x7b' :: name ++ '\x7d' :: back)

/-- Neither an opening nor a closing brace stands in the text. -/
structure IsBraceless (text : List Char) : Prop where
  not_open : '\x7b' ∉ text
  not_close : '\x7d' ∉ text

theorem isBraceless_of_plain {text : List Char} (h : ∀ c ∈ text, Regex.IsPlain c) :
    IsBraceless text where
  not_open hmem := absurd (h _ hmem) (by decide)
  not_close hmem := absurd (h _ hmem) (by decide)

section

variable {front name back : List Char} (hfront : IsBraceless front) (hback : IsBraceless back)
  (hname : name ≠ []) (hchars : ∀ c ∈ name, isNameChar c)

theorem placeholderAt?_of_ne {c : Char} (h : c ≠ '\x7b') (text : List Char) :
    placeholderAt? (c :: text) = none := by
  unfold placeholderAt?
  split
  case h_1 heq => exact absurd (List.cons.inj heq).1 h
  case h_2 => rfl

include hname hchars in
theorem placeholderAt?_name (back : List Char) :
    placeholderAt? ('\x7b' :: name ++ '\x7d' :: back) = some ('\x7b' :: name ++ ['\x7d']) := by
  have hstop : isNameChar '\x7d' = false := by decide
  obtain ⟨c, others, rfl⟩ := List.exists_cons_of_ne_nil hname
  have htake : (c :: others ++ '\x7d' :: back).takeWhile isNameChar = c :: others := by
    rw [List.takeWhile_append_of_pos hchars, List.takeWhile_cons_of_neg (by simp [hstop]),
      List.append_nil]
  have hdrop : (c :: others ++ '\x7d' :: back).dropWhile isNameChar = '\x7d' :: back :=
    Text.dropWhile_append_cons hchars hstop back
  rw [List.cons_append, placeholderAt?]
  simp only [htake, hdrop]

include hfront hname hchars in
/-- The one placeholder is found behind the text in front. -/
theorem placeholder?_literal :
    placeholder? (literal front name back) = some ('\x7b' :: name ++ ['\x7d']) := by
  have hbrace : '\x7b' ∉ front := hfront.not_open
  unfold literal
  clear hfront
  induction front with
  | nil =>
    rw [List.nil_append, List.cons_append, placeholder?, ← List.cons_append,
      placeholderAt?_name hname hchars]
    rfl
  | cons c front ih =>
    obtain ⟨hc, hfront⟩ := not_or.mp (List.mem_cons.not.mp hbrace)
    rw [List.cons_append, placeholder?, placeholderAt?_of_ne (Ne.symm hc), ih hfront]
    rfl

include hchars in
theorem not_mem_name (c : Char) (h : isNameChar c = false) : c ∉ name := by
  intro hmem
  rw [hchars c hmem] at h
  cases h

include hfront in
theorem startsWith_literal :
    Text.startsWith ('\x7b' :: name ++ ['\x7d']) (literal front name back) = true ↔ front = [] := by
  rw [Text.startsWith, Option.isSome_iff_exists]
  simp only [Text.stripStart?_eq_some_iff]
  constructor
  · rintro ⟨rest, hrest⟩
    cases front with
    | nil => rfl
    | cons c front =>
      have hhead : c = '\x7b' := by simpa [literal] using congrArg List.head? hrest
      exact absurd (hhead ▸ List.mem_cons_self) hfront.not_open
  · rintro rfl
    exact ⟨back, by simp [literal]⟩

include hback in
theorem endsWith_literal :
    Text.endsWith ('\x7b' :: name ++ ['\x7d']) (literal front name back) = true ↔ back = [] := by
  rw [Text.endsWith, Text.startsWith, Option.isSome_iff_exists]
  simp only [Text.stripStart?_eq_some_iff]
  constructor
  · rintro ⟨rest, hrest⟩
    rcases List.eq_nil_or_concat back with rfl | ⟨init, c, rfl⟩
    · rfl
    · have hlast : c = '\x7d' := by simpa [literal] using congrArg List.head? hrest
      exact absurd (by simp [hlast]) hback.not_close
  · rintro rfl
    exact ⟨front.reverse, by simp [literal]⟩

include hfront hback in
/-- The group takes the place of the placeholder, which occurs once. -/
theorem replace_literal (text : List Char) :
    Text.replace ('\x7b' :: name ++ ['\x7d']) text (literal front name back) =
      front ++ text ++ back := by
  have hbreak : Text.breakAt? ('\x7b' :: name ++ ['\x7d']) (literal front name back) =
      some (front, back) := by
    refine Text.breakAt?_eq_some_iff.mpr ⟨by simp [literal], fun x y hxy => ?_⟩
    by_contra hlt
    have hstarts : x ++ ['\x7b'] <+: front := by
      have hwhole : x ++ ['\x7b'] <+: literal front name back :=
        ⟨name ++ '\x7d' :: y, by simp [hxy]⟩
      refine List.prefix_of_prefix_length_le hwhole (List.prefix_append front _) ?_
      rw [List.length_append, List.length_singleton]
      omega
    exact hfront.not_open (hstarts.subset (by simp))
  have hnone : Text.breakAt? ('\x7b' :: name ++ ['\x7d']) back = none := by
    refine Text.breakAt?_eq_none_iff.mpr fun hstands => ?_
    exact hback.not_open (hstands.subset List.mem_cons_self)
  obtain ⟨fuel, hfuel⟩ : ∃ n, (literal front name back).length = n + 1 :=
    ⟨front.length + name.length + back.length + 1, by simp [literal]; omega⟩
  rw [Text.replace, if_neg (by simp), hfuel, Text.replaceUpTo, hbreak]
  dsimp only
  cases fuel with
  | zero => rfl
  | succ fuel => rw [Text.replaceUpTo, hnone]

include hfront hchars in
theorem ending_literal : ending (literal front name back) = back := by
  have hbreak : Text.breakChar? '\x7d' (literal front name back) =
      some (front ++ '\x7b' :: name, back) := by
    refine Text.breakChar?_eq_some_iff.mpr ⟨?_, by simp [literal]⟩
    rw [List.mem_append, List.mem_cons]
    rintro (hmem | heq | hmem)
    · exact hfront.not_close hmem
    · exact absurd heq (by decide)
    · exact not_mem_name hchars '\x7d' (by decide) hmem
  rw [ending, hbreak]

end

section

variable {fits : Regex → Bool} {front name back source : List Char}

theorem isBraceless_nil : IsBraceless [] := ⟨List.not_mem_nil, List.not_mem_nil⟩

/-- A placeholder alone stands for the whole source. -/
theorem extractText_nil (hname : name ≠ []) (hchars : ∀ c ∈ name, isNameChar c) :
    extractText fits source (literal [] name []) = source := by
  have hstart : Text.startsWith ('\x7b' :: name ++ ['\x7d']) (literal [] name []) = true :=
    (startsWith_literal isBraceless_nil).mpr rfl
  have hend : Text.endsWith ('\x7b' :: name ++ ['\x7d']) (literal [] name []) = true :=
    (endsWith_literal isBraceless_nil).mpr rfl
  simp only [extractText, placeholder?_literal isBraceless_nil hname hchars, hstart, hend,
    Bool.and_true, if_true]

/-- What is selected does not hang on the name: the text around it makes the pattern, and the text
behind it is where the capture is cut. -/
theorem extractText_literal (hfront : IsBraceless front) (hback : IsBraceless back)
    (hname : name ≠ []) (hchars : ∀ c ∈ name, isNameChar c) (hne : front ++ back ≠ []) :
    extractText fits source (literal front name back) =
      match capture? fits (front ++ '(' :: '.' :: '*' :: ')' :: back) source with
      | none => []
      | some found => if back = [] then found else cutBefore back found := by
  have hpart : ¬ (Text.startsWith ('\x7b' :: name ++ ['\x7d']) (literal front name back) &&
      Text.endsWith ('\x7b' :: name ++ ['\x7d']) (literal front name back)) = true := by
    rw [Bool.and_eq_true, startsWith_literal hfront, endsWith_literal hback]
    rintro ⟨rfl, rfl⟩
    exact hne rfl
  have hpattern : front ++ anyText ++ back = front ++ '(' :: '.' :: '*' :: ')' :: back := by
    simp [anyText]
  rw [extractText, placeholder?_literal hfront hname hchars]
  dsimp only
  rw [if_neg hpart, replace_literal hfront hback, hpattern, ending_literal hfront hchars]
  cases capture? fits (front ++ '(' :: '.' :: '*' :: ')' :: back) source with
  | none => rfl
  | some found => exact if_congr (endsWith_literal hback) rfl rfl

end

/-- What is selected of the text behind `front`: it ends in front of the first `back` when that is
neither at its start nor overlaps the last one, and in front of the last `back` otherwise. -/
def IsCut (back rest cut : List Char) : Prop :=
  ∃ first last, Text.IsFirst back rest first ∧ Text.IsLast back rest last ∧
    cut = if first = last ∨ (first ≠ [] ∧ first.length + back.length ≤ last.length) then first
      else last

/-- Cutting the capture at the first `back` gives the first occurrence only when that one is inside
and not at the start. -/
theorem isCut_cutBefore {back rest last : List Char} (hback : back ≠ [])
    (hlast : Text.IsLast back rest last) : IsCut back rest (cutBefore back last) := by
  obtain ⟨first, hfirst⟩ := Text.exists_isFirst hlast.isInfix
  refine ⟨first, last, hfirst, hlast, ?_⟩
  have hlength : 0 < back.length := List.length_pos_of_ne_nil hback
  have hstarts : last <+: rest := (List.prefix_append last back).trans hlast.occurs
  by_cases hinside : first.length + back.length ≤ last.length
  · have hne : first ≠ last := by
      rintro rfl
      omega
    have hoccurs : first ++ back <+: last :=
      List.prefix_of_prefix_length_le hfirst.occurs hstarts (by rwa [List.length_append])
    obtain ⟨others, hbreak⟩ := Text.isFirst_iff_breakAt?.mp
      (⟨hoccurs, fun x hx => hfirst.first x (hx.trans hstarts)⟩ : Text.IsFirst back last first)
    rw [cutBefore, hbreak]
    cases first with
    | nil => rw [if_neg (by simp [hne])]
    | cons c first => rw [if_pos (.inr ⟨List.cons_ne_nil c first, hinside⟩)]
  · have hbreak : Text.breakAt? back last = none := by
      refine Text.breakAt?_eq_none_iff.mpr fun ⟨x, (hx : x ++ back <+: last)⟩ => hinside ?_
      have hle := hfirst.first x (hx.trans hstarts)
      have hxlength := hx.length_le
      rw [List.length_append] at hxlength
      omega
    rw [cutBefore, hbreak]
    by_cases heq : first = last
    · rw [if_pos (.inl heq), heq]
    · rw [if_neg (by simp [heq, hinside])]

theorem isLast_nil (rest : List Char) : Text.IsLast [] rest rest :=
  ⟨by simp, fun x hx => by simpa using hx.length_le⟩

/-- What two literal texts around a placeholder select of a text. -/
structure IsSelected (front back source selected : List Char) : Prop where
  whole : front = [] → back = [] → selected = source
  behind : back = [] → ∀ rest, Text.IsBehind front back source rest → selected = rest
  cut : back ≠ [] → ∀ rest, Text.IsBehind front back source rest → IsCut back rest selected
  absent : (¬ ∃ rest, Text.IsBehind front back source rest) → selected = []

section

variable {fits : Regex → Bool} {front name back source : List Char}
  (hfront : ∀ c ∈ front, Regex.IsPlain c)
  (hback : ∀ c ∈ back, Regex.IsPlain c) (hname : name ≠ []) (hchars : ∀ c ∈ name, isNameChar c)

theorem isBehind_nil {rest : List Char} (h : Text.IsBehind [] [] source rest) : rest = source := by
  obtain ⟨-, before, rfl, hfirst⟩ := h
  have hle := hfirst [] (before ++ rest) rfl (List.nil_infix)
  rw [List.eq_nil_of_length_eq_zero (Nat.le_zero.mp hle)]
  rfl

theorem isSelected_whole : IsSelected [] [] source source where
  whole _ _ := rfl
  behind _ _ h := (isBehind_nil h).symm
  cut h := absurd rfl h
  absent h := by
    have htext : source = [] ++ ([] ++ source) := rfl
    exact absurd (Text.exists_isBehind htext List.nil_infix) h

include hfront hback hname hchars

/-- A template whose regular expression is too large selects nothing. -/
theorem extractText_of_not_fits (hne : front ++ back ≠ [])
    (hsize : fits (Regex.around front back) = false) :
    extractText fits source (literal front name back) = [] := by
  have hread := Regex.read?_around hfront hback fits
  rw [hsize, if_neg Bool.false_ne_true] at hread
  rw [extractText_literal (isBraceless_of_plain hfront) (isBraceless_of_plain hback) hname hchars
    hne, capture?, hread]
  rfl

/-- What the match selects is what lies behind the first `front` that has a `back` behind it. -/
theorem isSelected_extractText (hline : '\n' ∉ source) (hne : front ++ back ≠ [])
    (hsize : fits (Regex.around front back) = true) :
    IsSelected front back source (extractText fits source (literal front name back)) := by
  have hread := Regex.read?_around hfront hback fits
  rw [if_pos hsize] at hread
  have hcapture : capture? fits (front ++ '(' :: '.' :: '*' :: ')' :: back) source =
      (Regex.around front back).group? 1 source := by
    rw [capture?, hread]
    rfl
  rw [extractText_literal (isBraceless_of_plain hfront) (isBraceless_of_plain hback) hname hchars
    hne, hcapture]
  constructor
  case whole =>
    rintro rfl rfl
    exact absurd rfl hne
  case behind =>
    rintro rfl rest h
    rw [Regex.group?_around h (isLast_nil rest) hline]
    rfl
  case cut =>
    intro hback rest h
    obtain ⟨last, hlast⟩ := Text.exists_isLast h.infix_rest
    rw [Regex.group?_around h hlast hline]
    simpa only [if_neg hback] using isCut_cutBefore hback hlast
  case absent =>
    intro h
    rw [Regex.group?_around_eq_none h]

end

/-- A template of two literal texts selects what lies behind the first `front` that has a `back`
behind it. This holds for every limit on the size of a regular expression: a template that does not
fit selects nothing. -/
theorem extract_literal {fits : Regex → Bool} {front name back : List Char} {source : String}
    (hfront : ∀ c ∈ front, Regex.IsPlain c) (hback : ∀ c ∈ back, Regex.IsPlain c)
    (hname : name ≠ []) (hchars : ∀ c ∈ name, isNameChar c) (hline : '\n' ∉ source.toList) :
    (front ++ back = [] ∨ fits (Regex.around front back) = true →
        IsSelected front back source.toList
          (extract source (String.ofList (literal front name back)) fits).toList) ∧
      (front ++ back ≠ [] → fits (Regex.around front back) = false →
        extract source (String.ofList (literal front name back)) fits = "") := by
  simp only [extract, String.toList_ofList]
  refine ⟨fun hsize => ?_, fun hne hsize => ?_⟩
  · by_cases hne : front ++ back = []
    · obtain ⟨rfl, rfl⟩ := List.append_eq_nil_iff.mp hne
      rw [extractText_nil hname hchars]
      exact isSelected_whole
    · exact isSelected_extractText hfront hback hname hchars hline hne (hsize.resolve_left hne)
  · rw [extractText_of_not_fits hfront hback hname hchars hne hsize]

theorem extract_betweenSlashes :
    IsSelected ['i', 'd', '/'] ['/'] "id/a/b/".toList (extract "id/a/b/" "id/\x7bx\x7d/").toList ∧
      extract "id/a/b/" "id/\x7bx\x7d/" = "a" := by
  have hfront : ∀ c ∈ ['i', 'd', '/'], Regex.IsPlain c := by simp [Regex.IsPlain]
  have hback : ∀ c ∈ ['/'], Regex.IsPlain c := by simp [Regex.IsPlain]
  have hname : ['x'] ≠ [] := by simp
  have hchars : ∀ c ∈ ['x'], isNameChar c := by simp [isNameChar]
  have hline : '\n' ∉ "id/a/b/".toList := by simp
  have hsize : Regex.fits (Regex.around ['i', 'd', '/'] ['/']) = true := by decide
  exact ⟨(extract_literal hfront hback hname hchars hline).1 (.inr hsize), by decide +kernel⟩

/-- A `back` at the start of what lies behind `front` is passed over when there is another one. -/
theorem extract_emptyFirst :
    Text.IsBehind ['i', 'd', '/'] ['/'] "id//a/".toList ['/', 'a', '/'] ∧
      Text.IsFirst ['/'] ['/', 'a', '/'] [] ∧ extract "id//a/" "id/\x7bx\x7d/" = "/a" := by
  have hbehind : Text.IsBehind ['i', 'd', '/'] ['/'] "id//a/".toList ['/', 'a', '/'] :=
    ⟨by decide, [], rfl, fun x _ _ _ => Nat.zero_le x.length⟩
  have hfirst : Text.IsFirst ['/'] ['/', 'a', '/'] [] :=
    ⟨by decide, fun x _ => Nat.zero_le x.length⟩
  exact ⟨hbehind, hfirst, by decide +kernel⟩

end ClaimMapping.Template
