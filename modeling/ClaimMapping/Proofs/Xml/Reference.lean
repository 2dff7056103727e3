import ClaimMapping.Proofs.Journal.Outcome
import ClaimMapping.Proofs.Text.Trim
import ClaimMapping.Xml.Attribute
import ClaimMapping.Xml.Reference

namespace ClaimMapping.Xml

open Journal (ok_bind error_bind bind_eq_ok_iff map_eq_ok_iff)

section Unescape

variable {text : List Char}

theorem eq_of_takeReference {name rest : List Char}
    (h : takeReference text = .ok (name, rest)) : text = name ++ ';' :: rest := by
  induction text generalizing name with
  | nil => cases h
  | cons c text ih =>
    unfold takeReference at h
    split at h
    case h_1 => cases h
    case h_2 htext =>
      cases h
      exact htext
    case h_3 => cases h
    case h_4 _ _ htext =>
      cases htext
      obtain ⟨⟨name', rest'⟩, htake, he⟩ := map_eq_ok_iff.mp h
      cases he
      rw [ih htake, List.cons_append]

theorem unescapeUpTo_reference (fuel : Nat) (text : List Char) :
    unescapeUpTo (fuel + 1) ('&' :: text) = takeReference text >>= fun found =>
      reference found.1 >>= fun c => (unescapeUpTo fuel found.2).map (c :: ·) := rfl

theorem unescapeUpTo_cons {c : Char} (hc : c ≠ '&') (fuel : Nat) (text : List Char) :
    unescapeUpTo (fuel + 1) (c :: text) = (unescapeUpTo fuel text).map (c :: ·) := by
  rw [unescapeUpTo]
  exact hc

/-- More fuel than text changes nothing. -/
theorem unescapeUpTo_congr {fuel fuel' : Nat} (h : text.length ≤ fuel)
    (h' : text.length ≤ fuel') : unescapeUpTo fuel text = unescapeUpTo fuel' text := by
  induction fuel generalizing fuel' text with
  | zero =>
    obtain rfl := List.eq_nil_of_length_eq_zero (Nat.le_zero.mp h)
    cases fuel' <;> rfl
  | succ fuel ih =>
    cases text with
    | nil => cases fuel' <;> rfl
    | cons c text =>
      rw [List.length_cons] at h h'
      obtain ⟨fuel', rfl⟩ := Nat.exists_eq_succ_of_ne_zero (Nat.ne_zero_of_lt h')
      have hfuel : text.length ≤ fuel := Nat.le_of_succ_le_succ h
      have hfuel' : text.length ≤ fuel' := Nat.le_of_succ_le_succ h'
      by_cases hc : c = '&'
      · subst hc
        rw [unescapeUpTo_reference, unescapeUpTo_reference]
        cases htake : takeReference text with
        | error d => rfl
        | ok found =>
          obtain rfl := eq_of_takeReference htake
          rw [List.length_append, List.length_cons] at hfuel hfuel'
          have hrest : found.2.length ≤ fuel := by omega
          have hrest' : found.2.length ≤ fuel' := by omega
          rw [ok_bind, ok_bind, ih hrest hrest']
      · rw [unescapeUpTo_cons hc, unescapeUpTo_cons hc, ih hfuel hfuel']

@[simp] theorem unescape_nil : unescape [] = .ok [] := rfl

theorem unescape_reference (text : List Char) :
    unescape ('&' :: text) = takeReference text >>= fun found =>
      reference found.1 >>= fun c => (unescape found.2).map (c :: ·) := by
  rw [unescape, List.length_cons, unescapeUpTo_reference]
  cases htake : takeReference text with
  | error d => rfl
  | ok found =>
    obtain rfl := eq_of_takeReference htake
    have hlength : found.2.length ≤ (found.1 ++ ';' :: found.2).length := by
      rw [List.length_append, List.length_cons]
      omega
    rw [ok_bind, ok_bind, unescape, unescapeUpTo_congr hlength (Nat.le_refl _)]

theorem unescape_cons {c : Char} (hc : c ≠ '&') (text : List Char) :
    unescape (c :: text) = (unescape text).map (c :: ·) := by
  rw [unescape, List.length_cons, unescapeUpTo_cons hc, unescape]

end Unescape

/-- Every reference that begins in the text ends in it. -/
def EndsReferences (text : List Char) : Prop :=
  ∀ before after, text = before ++ '&' :: after → ';' ∈ after

theorem EndsReferences.of_suffix {text text' : List Char} (h : EndsReferences text)
    (hs : text' <:+ text) : EndsReferences text' := by
  obtain ⟨front, rfl⟩ := hs
  intro before after htext
  exact h (front ++ before) after (by rw [htext, List.append_assoc])

theorem EndsReferences.trimEnd {text : List Char} (h : EndsReferences text) :
    EndsReferences (Text.trimEnd isSpace text) := by
  obtain ⟨run, hrun, hspace⟩ := Text.exists_trimEnd_append isSpace text
  intro before after htext
  have hmem : ';' ∈ after ++ run := by
    apply h before
    rw [hrun, htext, List.append_assoc, List.cons_append]
  rcases List.mem_append.mp hmem with hafter | hend
  · exact hafter
  · exact absurd (hspace _ hend) (by decide)

theorem EndsReferences.trimBy {text : List Char} (h : EndsReferences text) :
    EndsReferences (Text.trimBy isSpace text) :=
  (h.of_suffix (Text.trimStart_suffix text)).trimEnd

theorem takeReference_cons {c : Char} (hend : c ≠ ';') (hamp : c ≠ '&') (text : List Char) :
    takeReference (c :: text) = (takeReference text).map fun found => (c :: found.1, found.2) := by
  rw [takeReference]
  · exact hend
  · exact hamp

/-- A reference that ends does not depend on what stands behind it. -/
theorem takeReference_append {text : List Char} (h : ';' ∈ text) (more : List Char) :
    takeReference (text ++ more) =
      (takeReference text).map fun found => (found.1, found.2 ++ more) := by
  induction text with
  | nil => cases h
  | cons c text ih =>
    by_cases hend : c = ';'
    · subst hend
      rfl
    by_cases hamp : c = '&'
    · subst hamp
      rfl
    have hmem : ';' ∈ text := by simpa [Ne.symm hend] using h
    rw [List.cons_append, takeReference_cons hend hamp, takeReference_cons hend hamp, ih hmem]
    cases takeReference text <;> rfl

/-- A text is unescaped in two pieces where no reference stands across the cut. -/
theorem unescape_append {left : List Char} (h : EndsReferences left) (right : List Char) :
    unescape (left ++ right) = unescape left >>= fun content =>
      (unescape right).map (content ++ ·) := by
  -- A reference takes more than one character, so the induction is on the length.
  induction hn : left.length using Nat.strong_induction_on generalizing left with
  | _ n ih =>
    cases left with
    | nil =>
      rw [List.nil_append, unescape_nil, ok_bind]
      cases unescape right <;> rfl
    | cons c left =>
      rw [List.length_cons] at hn
      have hleft : EndsReferences left := h.of_suffix (List.suffix_cons c left)
      by_cases hc : c = '&'
      · subst hc
        have hend : ';' ∈ left := h [] left rfl
        rw [List.cons_append, unescape_reference, unescape_reference, takeReference_append hend]
        cases htake : takeReference left with
        | error d => rfl
        | ok found =>
          have hsplit := eq_of_takeReference htake
          have hrest : found.2 <:+ left := by
            rw [hsplit]
            exact (List.suffix_cons ';' found.2).trans (List.suffix_append found.1 _)
          have hlength := hrest.length_le
          have hpiece := ih found.2.length (by omega) (hleft.of_suffix hrest) rfl
          change (reference found.1 >>= fun c => (unescape (found.2 ++ right)).map (c :: ·)) =
            (reference found.1 >>= fun c => (unescape found.2).map (c :: ·)) >>= _
          rw [hpiece]
          cases reference found.1 with
          | error d => rfl
          | ok c =>
            cases unescape found.2 with
            | error d => rfl
            | ok content => cases unescape right <;> rfl
      · have hpiece := ih left.length (by omega) hleft rfl
        rw [List.cons_append, unescape_cons hc, unescape_cons hc, hpiece]
        cases unescape left with
        | error d => rfl
        | ok content => cases unescape right <;> rfl

end ClaimMapping.Xml
