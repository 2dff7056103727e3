import ClaimMapping.Proofs.Text.Search
import Mathlib

namespace ClaimMapping.Text

variable {part text rest before other : List Char} {c : Char}

/-- `before` lies in front of the first occurrence of `part`. -/
structure IsFirst (part text before : List Char) : Prop where
  occurs : before ++ part <+: text
  first : ∀ x, x ++ part <+: text → before.length ≤ x.length

/-- `before` lies in front of the last occurrence of `part`. -/
structure IsLast (part text before : List Char) : Prop where
  occurs : before ++ part <+: text
  last : ∀ x, x ++ part <+: text → x.length ≤ before.length

/-- `rest` lies behind the first occurrence of `front` that has an occurrence of `back` behind
it. -/
structure IsBehind (front back text rest : List Char) : Prop where
  infix_rest : back <:+: rest
  first : ∃ before, text = before ++ (front ++ rest) ∧
    ∀ x y, text = x ++ (front ++ y) → back <:+: y → before.length ≤ x.length

theorem IsFirst.isInfix (h : IsFirst part text before) : part <:+: text := ⟨before, h.occurs⟩

theorem IsLast.isInfix (h : IsLast part text before) : part <:+: text := ⟨before, h.occurs⟩

/-- A text is broken at the first occurrence of a part. -/
theorem isFirst_iff_breakAt? :
    IsFirst part text before ↔ ∃ rest, breakAt? part text = some (before, rest) := by
  constructor
  · intro h
    obtain ⟨rest, hrest⟩ := h.occurs
    refine ⟨rest, breakAt?_eq_some_iff.mpr ⟨by rw [← hrest, List.append_assoc], fun x y hxy => ?_⟩⟩
    exact h.first x ⟨y, by rw [hxy, List.append_assoc]⟩
  · rintro ⟨rest, h⟩
    obtain ⟨htext, hfirst⟩ := breakAt?_eq_some_iff.mp h
    refine ⟨⟨rest, by rw [htext, List.append_assoc]⟩, fun x ⟨y, hxy⟩ => ?_⟩
    exact hfirst x y (by rw [← hxy, List.append_assoc])

theorem breakAt?_eq_none_iff : breakAt? part text = none ↔ ¬ part <:+: text := by
  constructor
  · rintro h ⟨x, y, hxy⟩
    induction x generalizing text with
    | nil =>
      have hstrip : stripStart? part text = some y := stripStart?_eq_some_iff.mpr hxy.symm
      cases text with
      | nil =>
        obtain ⟨hpart, -⟩ := List.append_eq_nil_iff.mp hxy
        rw [List.nil_append] at hpart
        rw [breakAt?, hpart] at h
        cases h
      | cons c text =>
        rw [breakAt?, hstrip] at h
        cases h
    | cons c x ih =>
      subst hxy
      rw [List.cons_append, List.cons_append, breakAt?] at h
      cases hstrip : stripStart? part (c :: (x ++ part ++ y)) with
      | some rest =>
        rw [hstrip] at h
        cases h
      | none =>
        rw [hstrip, Option.map_eq_none_iff] at h
        exact ih h rfl
  · intro h
    cases hbreak : breakAt? part text with
    | none => rfl
    | some cut => exact absurd (isFirst_iff_breakAt?.mpr ⟨cut.2, hbreak⟩).isInfix h

theorem exists_isFirst (h : part <:+: text) : ∃ before, IsFirst part text before := by
  cases hbreak : breakAt? part text with
  | some cut => exact ⟨cut.1, isFirst_iff_breakAt?.mpr ⟨cut.2, hbreak⟩⟩
  | none => exact absurd h (breakAt?_eq_none_iff.mp hbreak)

theorem IsLast.of_nil (h : IsLast part [] before) : before = [] ∧ part = [] :=
  List.append_eq_nil_iff.mp (List.prefix_nil.mp h.occurs)

/-- The last occurrence, from one character of the text to the next. -/
theorem isLast_cons_iff : IsLast part (c :: text) before ↔
    (before = [] ∧ part <+: c :: text ∧ ¬ part <:+: text) ∨
      ∃ b, before = c :: b ∧ IsLast part text b := by
  constructor
  · intro h
    cases before with
    | nil =>
      refine .inl ⟨rfl, h.occurs, fun ⟨x, hx⟩ => ?_⟩
      cases h.last (c :: x) (List.cons_prefix_cons.mpr ⟨rfl, hx⟩)
    | cons d b =>
      obtain ⟨rfl, hb⟩ := List.cons_prefix_cons.mp h.occurs
      refine .inr ⟨b, rfl, hb, fun x hx => ?_⟩
      exact Nat.succ_le_succ_iff.mp (h.last (d :: x) (List.cons_prefix_cons.mpr ⟨rfl, hx⟩))
  · rintro (⟨rfl, hstarts, hnot⟩ | ⟨b, rfl, h⟩)
    · refine ⟨hstarts, fun x hx => ?_⟩
      cases x with
      | nil => exact le_rfl
      | cons d x => exact absurd ⟨x, (List.cons_prefix_cons.mp hx).2⟩ hnot
    · refine ⟨List.cons_prefix_cons.mpr ⟨rfl, h.occurs⟩, fun x hx => ?_⟩
      cases x with
      | nil => exact Nat.zero_le _
      | cons d x => exact Nat.succ_le_succ (h.last x (List.cons_prefix_cons.mp hx).2)

theorem exists_isLast (h : part <:+: text) : ∃ before, IsLast part text before := by
  induction text with
  | nil =>
    rw [List.infix_nil] at h
    refine ⟨[], by rw [h]; exact List.nil_prefix, fun x hx => ?_⟩
    rw [(List.append_eq_nil_iff.mp (List.prefix_nil.mp hx)).1]
  | cons c text ih =>
    by_cases htail : part <:+: text
    · obtain ⟨before, hlast⟩ := ih htail
      exact ⟨c :: before, isLast_cons_iff.mpr (.inr ⟨before, rfl, hlast⟩)⟩
    · have hstarts := (List.infix_cons_iff.mp h).resolve_right htail
      exact ⟨[], isLast_cons_iff.mpr (.inl ⟨rfl, hstarts, htail⟩)⟩

/-- An occurrence with the second text somewhere behind it means that there is a first such one. -/
theorem exists_isBehind {front back rest : List Char} (htext : text = before ++ (front ++ rest))
    (hrest : back <:+: rest) : ∃ rest, IsBehind front back text rest := by
  have hsome : ∃ n x y, x.length = n ∧ text = x ++ (front ++ y) ∧ back <:+: y :=
    ⟨_, before, rest, rfl, htext, hrest⟩
  classical
  obtain ⟨x, y, hlength, hxy, hy⟩ := Nat.find_spec hsome
  refine ⟨y, hy, x, hxy, fun x' y' hxy' hy' => ?_⟩
  rw [hlength]
  exact Nat.find_min' hsome ⟨x', y', rfl, hxy', hy'⟩

end ClaimMapping.Text
