import ClaimMapping.Text.Blank
import ClaimMapping.Text.Search
import Mathlib

namespace ClaimMapping.Text

theorem stripStart?_eq_some_iff {pattern text rest : List Char} :
    stripStart? pattern text = some rest ↔ text = pattern ++ rest := by
  induction pattern generalizing text with
  | nil => simp [stripStart?, eq_comm]
  | cons p pattern ih =>
    cases text with
    | nil => simp [stripStart?]
    | cons c text =>
      rw [stripStart?, List.cons_append, List.cons.injEq]
      by_cases h : p = c
      · rw [if_pos h, ih]
        simp [h]
      · rw [if_neg h]
        simp [Ne.symm h]

/-- A text cut at a character is put together again from the pieces, and the cut is the leftmost
one. -/
theorem breakChar?_eq_some_iff {sep : Char} {text before rest : List Char} :
    breakChar? sep text = some (before, rest) ↔ sep ∉ before ∧ text = before ++ sep :: rest := by
  induction text generalizing before with
  | nil => simp [breakChar?]
  | cons c text ih =>
    rw [breakChar?]
    by_cases h : c = sep
    · subst h
      rw [if_pos rfl, Option.some.injEq, Prod.mk.injEq]
      cases before with
      | nil => simp [eq_comm]
      | cons d before => simp +contextual [eq_comm]
    · rw [if_neg h, Option.map_eq_some_iff]
      constructor
      · intro h
        obtain ⟨⟨b, r⟩, hb, he⟩ := h
        cases he
        obtain ⟨hn, rfl⟩ := ih.mp hb
        simp [hn, Ne.symm h]
      · intro h
        obtain ⟨hn, he⟩ := h
        cases before with
        | nil => exact absurd (List.cons.inj he).1 h
        | cons d before =>
          obtain ⟨rfl, rfl⟩ := List.cons.inj he
          exact ⟨(before, rest), ih.mpr ⟨fun hm => hn (by simp [hm]), rfl⟩, rfl⟩

theorem breakChar?_eq_none_iff {sep : Char} {text : List Char} :
    breakChar? sep text = none ↔ sep ∉ text := by
  induction text with
  | nil => simp [breakChar?]
  | cons c text ih =>
    rw [breakChar?]
    by_cases h : c = sep
    · simp [h]
    · rw [if_neg h, Option.map_eq_none_iff, ih, List.mem_cons, not_or]
      exact ⟨fun hnot => ⟨Ne.symm h, hnot⟩, And.right⟩

/-- A run of characters is dropped up to the first character that is none of them. -/
theorem dropWhile_append_cons {p : Char → Bool} {run : List Char} (h : ∀ c ∈ run, p c) {c : Char}
    (hc : p c = false) (rest : List Char) : (run ++ c :: rest).dropWhile p = c :: rest := by
  rw [List.dropWhile_append_of_pos h, List.dropWhile_cons_of_neg (by simp [hc])]

/-- A text is cut at the first place where the pattern stands. -/
theorem breakAt?_eq_some_iff {pattern text before rest : List Char} :
    breakAt? pattern text = some (before, rest) ↔ text = before ++ (pattern ++ rest) ∧
      ∀ x y, text = x ++ (pattern ++ y) → before.length ≤ x.length := by
  induction text generalizing before with
  | nil =>
    by_cases hp : pattern = []
    · subst hp
      simp +contextual [breakAt?, eq_comm]
    · simp [breakAt?, hp]
  | cons c text ih =>
    rw [breakAt?]
    cases hs : stripStart? pattern (c :: text) with
    | some found =>
      have htext := stripStart?_eq_some_iff.mp hs
      dsimp only
      constructor
      · intro h
        cases h
        exact ⟨htext, fun x y _ => Nat.zero_le _⟩
      · intro h
        obtain ⟨hcut, hfirst⟩ := h
        have hlength : before.length ≤ 0 := hfirst [] found htext
        have hnil : before = [] := List.eq_nil_of_length_eq_zero (Nat.le_zero.mp hlength)
        subst hnil
        rw [htext, List.nil_append, List.append_cancel_left_eq] at hcut
        rw [hcut]
    | none =>
      -- the pattern is not at the start, so every place of it is one behind a place in the rest
      have hne (y : List Char) : c :: text ≠ pattern ++ y := by
        intro h
        rw [stripStart?_eq_some_iff.mpr h] at hs
        cases hs
      dsimp only
      rw [Option.map_eq_some_iff]
      constructor
      · intro h
        obtain ⟨⟨b, r⟩, hb, he⟩ := h
        cases he
        obtain ⟨htext, hfirst⟩ := ih.mp hb
        refine ⟨by rw [htext, List.cons_append], fun x y hxy => ?_⟩
        cases x with
        | nil => exact absurd hxy (hne y)
        | cons d x =>
          rw [List.cons_append] at hxy
          exact Nat.succ_le_succ (hfirst x y (List.cons.inj hxy).2)
      · intro h
        obtain ⟨hcut, hfirst⟩ := h
        cases before with
        | nil => exact absurd hcut (hne rest)
        | cons d before =>
          rw [List.cons_append] at hcut
          obtain ⟨rfl, htail⟩ := List.cons.inj hcut
          refine ⟨(before, rest), ih.mpr ⟨htail, fun x y hxy => ?_⟩, rfl⟩
          have hle := hfirst (c :: x) y (by rw [hxy, List.cons_append])
          exact Nat.succ_le_succ_iff.mp hle

/-- A cut does not depend on what follows the pattern. -/
theorem breakAt?_append {pattern text before rest : List Char}
    (h : breakAt? pattern text = some (before, rest)) :
    text = before ++ (pattern ++ rest) ∧
      ∀ other, breakAt? pattern (before ++ (pattern ++ other)) = some (before, other) := by
  obtain ⟨htext, hfirst⟩ := breakAt?_eq_some_iff.mp h
  refine ⟨htext, fun other => breakAt?_eq_some_iff.mpr ⟨rfl, fun x y hxy => ?_⟩⟩
  by_contra hlt
  have hshort : (x ++ pattern).length ≤ (before ++ pattern).length := by
    simp only [List.length_append]
    omega
  have hfront : x ++ pattern <+: before ++ pattern := by
    refine List.prefix_of_prefix_length_le ?_ (List.prefix_append (before ++ pattern) other) hshort
    exact ⟨y, by rw [List.append_assoc, ← hxy, List.append_assoc]⟩
  obtain ⟨z, hz⟩ := hfront
  have hearlier : text = x ++ (pattern ++ (z ++ rest)) := by
    rw [htext, ← List.append_assoc, ← hz]
    simp
  have hle := hfirst x (z ++ rest) hearlier
  omega

theorem splitChar_of_not_mem {sep : Char} {text : List Char} (h : sep ∉ text) :
    splitChar sep text = [text] := by
  induction text with
  | nil => rfl
  | cons c text ih =>
    have hc : c ≠ sep := by
      rintro rfl
      exact h List.mem_cons_self
    have htext : sep ∉ text := fun hm => h (List.mem_cons_of_mem c hm)
    rw [splitChar, if_neg hc, ih htext]

theorem splitChar_append_cons {sep : Char} {part : List Char} (h : sep ∉ part)
    (rest : List Char) : splitChar sep (part ++ sep :: rest) = part :: splitChar sep rest := by
  induction part with
  | nil => rw [List.nil_append, splitChar, if_pos rfl]
  | cons c part ih =>
    have hc : c ≠ sep := by
      rintro rfl
      exact h List.mem_cons_self
    have hpart : sep ∉ part := fun hm => h (List.mem_cons_of_mem c hm)
    rw [List.cons_append, splitChar, if_neg hc, ih hpart]

/-- A text is one part, or a first part and the parts behind the first separator. -/
theorem splitChar_cases (sep : Char) (text : List Char) :
    (sep ∉ text ∧ splitChar sep text = [text]) ∨
      ∃ part rest, text = part ++ sep :: rest ∧ sep ∉ part ∧
        splitChar sep text = part :: splitChar sep rest := by
  by_cases hmem : sep ∈ text
  · obtain ⟨part, rest, rfl, hpart⟩ := List.eq_append_cons_of_mem hmem
    exact .inr ⟨part, rest, rfl, hpart, splitChar_append_cons hpart rest⟩
  · exact .inl ⟨hmem, splitChar_of_not_mem hmem⟩

theorem splitChar_ne_nil (sep : Char) (text : List Char) : splitChar sep text ≠ [] := by
  obtain ⟨-, h⟩ | ⟨part, rest, -, -, h⟩ := splitChar_cases sep text
  · simp [h]
  · simp [h]

/-- Three parts stand between two separators. -/
theorem splitChar_eq_three {sep : Char} {text first second third : List Char}
    (h : splitChar sep text = [first, second, third]) :
    text = first ++ sep :: (second ++ sep :: third) ∧ sep ∉ third := by
  obtain ⟨-, hone⟩ | ⟨part, rest, rfl, -, hsplit⟩ := splitChar_cases sep text
  · rw [h] at hone
    cases hone
  rw [h] at hsplit
  obtain ⟨rfl, hrest⟩ := List.cons.inj hsplit
  obtain ⟨-, hone⟩ | ⟨part, last, rfl, -, hsplit⟩ := splitChar_cases sep rest
  · rw [← hrest] at hone
    cases hone
  rw [← hrest] at hsplit
  obtain ⟨rfl, hlast⟩ := List.cons.inj hsplit
  obtain ⟨hmem, hone⟩ | ⟨part, more, rfl, -, hsplit⟩ := splitChar_cases sep last
  · rw [← hlast] at hone
    cases hone
    exact ⟨rfl, hmem⟩
  · rw [← hlast] at hsplit
    exact absurd (List.cons.inj hsplit).2.symm (splitChar_ne_nil sep more)

end ClaimMapping.Text
