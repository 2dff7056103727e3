import ClaimMapping.Json.Number
import ClaimMapping.Json.Printer
import ClaimMapping.Proofs.Decimal.Numeral

namespace ClaimMapping.Json

open Decimal

/-- The end of a text, or punctuation or a new line that can follow a value. -/
def Ends (rest : List Char) : Prop :=
  ∀ c ∈ rest.head?, c = ',' ∨ c = ']' ∨ c = '\x7d' ∨ c = '\n'

theorem ends_nil : Ends [] := by simp [Ends]

theorem ends_comma (rest : List Char) : Ends (',' :: rest) := by simp [Ends]

theorem ends_bracket (rest : List Char) : Ends (']' :: rest) := by simp [Ends]

theorem ends_brace (rest : List Char) : Ends ('\x7d' :: rest) := by simp [Ends]

theorem ends_newLine (level : Nat) (rest : List Char) : Ends (newLine level ++ rest) := by
  simp [Ends, newLine]

theorem Ends.not_digit {rest : List Char} (h : Ends rest) :
    ∀ c ∈ rest.head?, isDigit c = false := by
  intro c hc
  obtain rfl | rfl | rfl | rfl := h c hc <;> rfl

variable {more : List Char}

/-- Digits of a whole number: at least one, and no zero in front of others. -/
def IsWhole (digits : List Char) : Prop := digits ≠ [] ∧ ∀ c ds, digits ≠ '0' :: c :: ds

/-- The digits of a whole number are all that there are, and no needless zero is in front. -/
theorem takeWhole?_eq_some_iff {text digits rest : List Char} :
    takeWhole? text = some (digits, rest) ↔ takeDigits text = (digits, rest) ∧ IsWhole digits := by
  unfold takeWhole? IsWhole
  split
  next r hd =>
    refine iff_of_false (by simp) ?_
    intro h
    obtain ⟨h, hne, -⟩ := h
    rw [hd] at h
    cases h
    exact hne rfl
  next c ds r hd =>
    simp only [hd, Prod.mk.injEq, reduceCtorEq, false_iff]
    intro h
    obtain ⟨⟨rfl, -⟩, -, h⟩ := h
    exact h c ds rfl
  next ds r hne hzero hd =>
    rw [hd]
    constructor
    · intro h
      cases h
      exact ⟨rfl, fun h => hne h, fun c ds h => hzero c ds h⟩
    · intro h
      obtain ⟨h, -⟩ := h
      cases h
      rfl

theorem takeWhole?_append {text digits rest : List Char} (h : takeWhole? text = some (digits, rest))
    (hm : Ends more) : takeWhole? (text ++ more) = some (digits, rest ++ more) := by
  obtain ⟨hd, hw⟩ := takeWhole?_eq_some_iff.mp h
  exact takeWhole?_eq_some_iff.mpr ⟨takeDigits_append_of_eq hd hm.not_digit, hw⟩

theorem takeFraction?_of_ne {text : List Char} (h : text.head? ≠ some '.') :
    takeFraction? text = some (none, text) := by
  unfold takeFraction?
  split
  · simp at h
  · rfl

theorem takeFraction?_append {text rest : List Char} {digits : Option (List Char)}
    (h : takeFraction? text = some (digits, rest)) (hm : Ends more) :
    takeFraction? (text ++ more) = some (digits, rest ++ more) := by
  by_cases hp : text.head? = some '.'
  · obtain ⟨text, rfl⟩ := List.head?_eq_some_iff.mp hp
    simp only [takeFraction?, List.cons_append] at h ⊢
    split at h
    · cases h
    next ds r hne hd =>
      cases h
      rw [takeDigits_append_of_eq hd hm.not_digit]
      split
      next he => exact absurd (Prod.mk.inj he).1 hne
      next he =>
        cases he
        rfl
  · rw [takeFraction?_of_ne hp] at h
    cases h
    refine takeFraction?_of_ne fun hp' => ?_
    cases text with
    | nil =>
      rw [List.nil_append] at hp'
      have hend := hm '.' hp'
      simp at hend
    | cons => exact hp hp'

theorem takeSign_of_ne {text : List Char} (hm : text.head? ≠ some '-')
    (hp : text.head? ≠ some '+') : takeSign text = (false, text) := by
  unfold takeSign
  split
  · simp at hm
  · simp at hp
  · rfl

theorem takeSign_append (text : List Char) (hm : Ends more) :
    takeSign (text ++ more) = ((takeSign text).1, (takeSign text).2 ++ more) := by
  cases text with
  | nil =>
    refine takeSign_of_ne (fun h => ?_) fun h => ?_
    · have hend := hm '-' h
      simp at hend
    · have hend := hm '+' h
      simp at hend
  | cons c text =>
    by_cases hminus : c = '-'
    · subst hminus
      rfl
    by_cases hplus : c = '+'
    · subst hplus
      rfl
    have hm' : (c :: text).head? ≠ some '-' := by simpa using hminus
    have hp' : (c :: text).head? ≠ some '+' := by simpa using hplus
    rw [takeSign_of_ne hm' hp']
    exact takeSign_of_ne hm' hp'

theorem power_append {text rest : List Char} {exponent : Option Int}
    (h : takePower?.power text = some (exponent, rest)) (hm : Ends more) :
    takePower?.power (text ++ more) = some (exponent, rest ++ more) := by
  unfold takePower?.power at h ⊢
  rw [takeSign_append text hm]
  dsimp only at h ⊢
  split at h
  · cases h
  next ds r hne hd =>
    cases h
    rw [takeDigits_append_of_eq hd hm.not_digit]
    split
    next he => exact absurd (Prod.mk.inj he).1 hne
    next he =>
      cases he
      rfl

theorem takePower?_of_ne {text : List Char} (he : text.head? ≠ some 'e')
    (hE : text.head? ≠ some 'E') : takePower? text = some (none, text) := by
  unfold takePower?
  split
  · simp at he
  · simp at hE
  · rfl

theorem takePower?_append {text rest : List Char} {exponent : Option Int}
    (h : takePower? text = some (exponent, rest)) (hm : Ends more) :
    takePower? (text ++ more) = some (exponent, rest ++ more) := by
  cases text with
  | nil =>
    cases h
    refine takePower?_of_ne (fun h => ?_) fun h => ?_
    · have hend := hm 'e' h
      simp at hend
    · have hend := hm 'E' h
      simp at hend
  | cons c text =>
    by_cases he : c = 'e'
    · subst he
      exact power_append h hm
    by_cases hE : c = 'E'
    · subst hE
      exact power_append h hm
    have he' : (c :: text).head? ≠ some 'e' := by simpa using he
    have hE' : (c :: text).head? ≠ some 'E' := by simpa using hE
    rw [takePower?_of_ne he' hE'] at h
    cases h
    exact takePower?_of_ne he' hE'

/-- A number behind its sign. -/
def takeMagnitude? (negative : Bool) (text : List Char) : Option (Number × List Char) := do
  let (whole, rest) ← takeWhole? text
  let (fraction, rest) ← takeFraction? rest
  let (exponent, rest) ← takePower? rest
  let n ← ofDigits? negative whole fraction exponent
  return (n, rest)

theorem takeNumber?_minus (text : List Char) :
    takeNumber? ('-' :: text) = takeMagnitude? true text := rfl

theorem takeNumber?_of_ne {text : List Char} (h : text.head? ≠ some '-') :
    takeNumber? text = takeMagnitude? false text := by
  unfold takeNumber?
  split
  next negative rest hs =>
    split at hs
    · simp at h
    · cases hs
      rfl

/-- A number without its sign is the same in front of whatever can follow a value. -/
theorem takeMagnitude?_append {negative : Bool} {text rest : List Char} {n : Number}
    (h : takeMagnitude? negative text = some (n, rest)) (hm : Ends more) :
    takeMagnitude? negative (text ++ more) = some (n, rest ++ more) := by
  simp only [takeMagnitude?, Option.bind_eq_bind, Option.bind_eq_some_iff, Prod.exists] at h ⊢
  obtain ⟨whole, r1, h1, fraction, r2, h2, exponent, r3, h3, n', hn, he⟩ := h
  cases he
  exact ⟨whole, _, takeWhole?_append h1 hm, fraction, _, takeFraction?_append h2 hm, exponent, _,
    takePower?_append h3 hm, n, hn, rfl⟩

/-- What is read as a number is also read in front of punctuation. -/
theorem takeNumber?_append {text rest : List Char} {n : Number}
    (h : takeNumber? text = some (n, rest)) (hm : Ends more) :
    takeNumber? (text ++ more) = some (n, rest ++ more) := by
  cases text with
  | nil => cases h
  | cons c text =>
    by_cases hc : c = '-'
    · subst hc
      exact takeMagnitude?_append h hm
    · have hc' : (c :: text).head? ≠ some '-' := by simpa using hc
      have hc'' : (c :: text ++ more).head? ≠ some '-' := hc'
      rw [takeNumber?_of_ne hc'] at h
      rw [takeNumber?_of_ne hc'']
      exact takeMagnitude?_append h hm

theorem isWhole_natText (n : Nat) : IsWhole (natText n) := by
  refine ⟨natText_ne_nil n, fun c ds h => ?_⟩
  by_cases hn : n = 0
  · subst hn
    cases h
  · apply head?_natText hn
    rw [h]
    rfl

theorem takeSignificant_concat {n m : Nat} {digits : List Char}
    (h : takeSignificant n digits = (m, [])) {c : Char} (hc : 10 * m + digitValue c < wordLimit) :
    takeSignificant n (digits ++ [c]) = (10 * m + digitValue c, []) := by
  induction digits generalizing n with
  | nil =>
    cases h
    simp only [List.nil_append, takeSignificant, if_pos hc]
  | cons d digits ih =>
    simp only [List.cons_append, takeSignificant] at h ⊢
    split_ifs at h ⊢ with hd
    · exact ih h
    · cases h

theorem takeSignificant_natText {n : Nat} (h : n < wordLimit) :
    takeSignificant 0 (natText n) = (n, []) := by
  induction n using Nat.strongRecOn with
  | ind n ih =>
    by_cases hn : n < 10
    · rw [natText_of_lt hn, takeSignificant, digitValue_digitChar hn, if_pos (by omega),
        Nat.mul_zero, Nat.zero_add]
      rfl
    · have hv : digitValue (n % 10).digitChar = n % 10 := digitValue_digitChar (by omega)
      have hs : 10 * (n / 10) + digitValue (n % 10).digitChar = n := by omega
      rw [natText_of_le (by omega)]
      rw [takeSignificant_concat (ih (n / 10) (by omega) (by omega)) (by omega), hs]

theorem takeMagnitude?_natText (negative : Bool) {n : Nat} (h : n < wordLimit)
    (hm : Ends more) :
    takeMagnitude? negative (natText n ++ more) = some (integer negative n, more) := by
  have hw : takeWhole? (natText n ++ more) = some (natText n, more) :=
    takeWhole?_eq_some_iff.mpr
      ⟨takeDigits_append (fun _ => isDigit_of_mem_natText) hm.not_digit, isWhole_natText n⟩
  have hf : takeFraction? ([] ++ more) = some (none, [] ++ more) := takeFraction?_append rfl hm
  have hp : takePower? ([] ++ more) = some (none, [] ++ more) := takePower?_append rfl hm
  rw [List.nil_append] at hf hp
  have hd : ofDigits? negative (natText n) none none = some (integer negative n) := by
    rw [ofDigits?, takeSignificant_natText h]
    rfl
  rw [takeMagnitude?, hw]
  dsimp only [Option.bind_eq_bind, Option.bind_some]
  rw [hf]
  dsimp only [Option.bind_some]
  rw [hp]
  dsimp only [Option.bind_some]
  rw [hd]
  rfl

theorem head?_natText_append (n : Nat) (more : List Char) :
    ∃ c, (natText n ++ more).head? = some c ∧ isDigit c = true := by
  obtain ⟨c, ds, h⟩ := List.exists_cons_of_ne_nil (natText_ne_nil n)
  refine ⟨c, ?_, isDigit_of_mem_natText (n := n) (by rw [h]; simp)⟩
  rw [h]
  rfl

/-- A written natural number is read as itself. -/
theorem takeNumber?_natural (n : UInt64) (hm : Ends more) :
    takeNumber? ((Number.natural n).text ++ more) = some (.natural n, more) := by
  have hhead : (natText n.toNat ++ more).head? ≠ some '-' := by
    obtain ⟨c, hc, hd⟩ := head?_natText_append n.toNat more
    intro h
    rw [hc] at h
    cases h
    cases hd
  change takeNumber? (natText n.toNat ++ more) = _
  rw [takeNumber?_of_ne hhead, takeMagnitude?_natText false n.toNat_lt hm, integer,
    if_neg Bool.false_ne_true, UInt64.ofNat_toNat]

theorem takeNumber?_negative {n : Int64} (hn : n < 0) (hm : Ends more) :
    takeNumber? ((Number.negative n).text ++ more) = some (.negative n, more) := by
  have hneg : n.toInt < 0 := Int64.lt_iff_toInt_lt.mp hn
  have hleast : -2 ^ 63 ≤ n.toInt := n.le_toInt
  have habs : ¬ (n.toInt.natAbs = 0 ∨ 0x8000000000000000 < n.toInt.natAbs) := by omega
  have hback : -(n.toInt.natAbs : Int) = n.toInt := by omega
  have htext : (Number.negative n).text = '-' :: natText n.toInt.natAbs := if_pos hneg
  rw [htext, List.cons_append, takeNumber?_minus,
    takeMagnitude?_natText true (by rw [wordLimit]; omega) hm, integer, if_pos rfl, if_neg habs,
    hback, Int64.ofInt_toInt]

end ClaimMapping.Json
