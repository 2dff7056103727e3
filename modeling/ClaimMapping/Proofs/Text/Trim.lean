import ClaimMapping.Text.Blank
import Mathlib

namespace ClaimMapping.Text

variable {p : Char → Bool} {c : Char}

/-- A character that is kept keeps everything behind it. -/
theorem trimStart_append_cons (hc : p c = false) (before after : List Char) :
    trimStart p (before ++ c :: after) = trimStart p before ++ c :: after := by
  induction before with
  | nil => simp [trimStart, hc]
  | cons d before ih =>
    rw [trimStart] at ih
    by_cases hd : p d = true
    · simpa [trimStart, hd] using ih
    · simp [trimStart, hd]

theorem trimEnd_append_cons (hc : p c = false) (before after : List Char) :
    trimEnd p (before ++ c :: after) = before ++ c :: trimEnd p after := by
  have hrev : (before ++ c :: after).reverse = after.reverse ++ c :: before.reverse := by simp
  have hdrop := trimStart_append_cons hc after.reverse before.reverse
  rw [trimStart, trimStart] at hdrop
  rw [trimEnd, hrev, hdrop, trimEnd]
  simp

theorem trimStart_append_of_all {run : List Char} (h : ∀ d ∈ run, p d = true) (after : List Char) :
    trimStart p (run ++ after) = trimStart p after := List.dropWhile_append_of_pos h

theorem trimEnd_append_of_all {run : List Char} (h : ∀ d ∈ run, p d = true)
    (before : List Char) : trimEnd p (before ++ run) = trimEnd p before := by
  rw [trimEnd, List.reverse_append, List.dropWhile_append_of_pos (by simpa using h), trimEnd]

theorem trimStart_eq_nil_iff {text : List Char} :
    trimStart p text = [] ↔ ∀ d ∈ text, p d = true := List.dropWhile_eq_nil_iff

theorem trimEnd_eq_nil_iff {text : List Char} : trimEnd p text = [] ↔ ∀ d ∈ text, p d = true := by
  simp [trimEnd, List.dropWhile_eq_nil_iff]

theorem trimStart_suffix (text : List Char) : trimStart p text <:+ text := List.dropWhile_suffix p

theorem trimEnd_prefix (text : List Char) : trimEnd p text <+: text := by
  have h : (trimEnd p text).reverse <:+ text.reverse := by
    rw [trimEnd, List.reverse_reverse]
    exact List.dropWhile_suffix p
  exact List.reverse_suffix.mp h

theorem exists_append_trimStart (p : Char → Bool) (text : List Char) :
    ∃ run, text = run ++ trimStart p text ∧ ∀ d ∈ run, p d = true :=
  ⟨text.takeWhile p, List.takeWhile_append_dropWhile.symm, fun _ hd => List.mem_takeWhile_imp hd⟩

theorem exists_trimEnd_append (p : Char → Bool) (text : List Char) :
    ∃ run, text = trimEnd p text ++ run ∧ ∀ d ∈ run, p d = true := by
  obtain ⟨run, hrun, hall⟩ := exists_append_trimStart p text.reverse
  refine ⟨run.reverse, ?_, by simpa using hall⟩
  rw [trimEnd, ← List.reverse_append]
  exact List.reverse_eq_iff.mp hrun

/-- What trimming takes away stands at the two ends. -/
theorem exists_append_trimBy_append (p : Char → Bool) (text : List Char) :
    ∃ before after, text = before ++ (trimBy p text ++ after) ∧ (∀ d ∈ before, p d = true) ∧
      ∀ d ∈ after, p d = true := by
  obtain ⟨before, hbefore, hall⟩ := exists_append_trimStart p text
  obtain ⟨after, hafter, hall'⟩ := exists_trimEnd_append p (trimStart p text)
  refine ⟨before, after, ?_, hall, hall'⟩
  rw [trimBy, ← hafter, ← hbefore]

/-- Either all of a text is trimmed away, or all behind a last character that is kept. -/
theorem trimEnd_cases (p : Char → Bool) (text : List Char) :
    (∀ d ∈ text, p d = true) ∨ ∃ before c run, text = before ++ c :: run ∧ p c = false ∧
      ∀ d ∈ run, p d = true := by
  induction text with
  | nil => exact .inl (by simp)
  | cons d text ih =>
    obtain hall | ⟨before, c, run, rfl, hc, hrun⟩ := ih
    · by_cases hd : p d = true
      · exact .inl (List.forall_mem_cons.mpr ⟨hd, hall⟩)
      · exact .inr ⟨[], d, text, rfl, by simpa using hd, hall⟩
    · exact .inr ⟨d :: before, c, run, rfl, hc, hrun⟩

theorem trimBy_of_all {run : List Char} (h : ∀ d ∈ run, p d = true) : trimBy p run = [] := by
  rw [trimBy, trimStart_eq_nil_iff.mpr h]
  rfl

/-- A text is trimmed on both sides of a character that is kept. -/
theorem trimBy_append_cons (hc : p c = false) (before after : List Char) :
    trimBy p (before ++ c :: after) = trimStart p before ++ c :: trimEnd p after := by
  rw [trimBy, trimStart_append_cons hc, trimEnd_append_cons hc]

/-- What is trimmed from two pieces is trimmed at the cut as well as at the ends. -/
theorem trimBy_trimEnd_append_trimStart (p : Char → Bool) (left right : List Char) :
    trimBy p (trimEnd p left ++ trimStart p right) = trimBy p left ++ trimBy p right := by
  obtain hleft | ⟨before, c, run, rfl, hc, hrun⟩ := trimEnd_cases p left
  · rw [trimEnd_eq_nil_iff.mpr hleft, trimBy_of_all hleft, List.nil_append, List.nil_append,
      trimBy, trimStart, trimStart, List.dropWhile_idempotent]
    rfl
  · have hend : trimEnd p run = [] := trimEnd_eq_nil_iff.mpr hrun
    have hpieces : before ++ [c] ++ trimStart p right = before ++ c :: trimStart p right := by simp
    rw [trimEnd_append_cons hc, hend, hpieces, trimBy_append_cons hc, trimBy_append_cons hc, hend]
    simp [trimBy]

/-- A text is trimmed piece by piece when nothing is trimmed at the cut, or one piece is trimmed
away. -/
theorem trimBy_append {left right : List Char} (h : (∀ d ∈ left, p d = true) ∨
    (∀ d ∈ right, p d = true) ∨ trimEnd p left = left ∧ trimStart p right = right) :
    trimBy p (left ++ right) = trimBy p left ++ trimBy p right := by
  obtain hleft | hright | ⟨hleft, hright⟩ := h
  · rw [trimBy, trimStart_append_of_all hleft, trimBy_of_all hleft, List.nil_append, trimBy]
  · rw [trimBy_of_all hright, List.append_nil]
    obtain hleft | ⟨before, c, run, rfl, hc, hrun⟩ := trimEnd_cases p left
    · have hall : ∀ d ∈ left ++ right, p d = true := List.forall_mem_append.mpr ⟨hleft, hright⟩
      rw [trimBy_of_all hall, trimBy_of_all hleft]
    · have hpieces : before ++ c :: run ++ right = before ++ c :: (run ++ right) := by simp
      rw [hpieces, trimBy_append_cons hc, trimBy_append_cons hc, trimEnd_append_of_all hright]
  · rw [← trimBy_trimEnd_append_trimStart, hleft, hright]

end ClaimMapping.Text
