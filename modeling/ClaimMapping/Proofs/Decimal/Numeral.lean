import ClaimMapping.Decimal.Layout
import ClaimMapping.Decimal.Numeral
import Mathlib

namespace ClaimMapping.Decimal

theorem digitValue_digitChar {n : Nat} (h : n < 10) : digitValue n.digitChar = n :=
  Nat.toNat_digitChar_sub_48_of_lt_ten h

theorem natText_of_lt {n : Nat} (h : n < 10) : natText n = [n.digitChar] :=
  Nat.toDigits_of_lt_base h

theorem natText_of_le {n : Nat} (h : 10 ≤ n) :
    natText n = natText (n / 10) ++ [(n % 10).digitChar] := Nat.toDigits_of_base_le (by omega) h

theorem natText_ne_nil (n : Nat) : natText n ≠ [] := Nat.toDigits_ne_nil

theorem intText_ne_nil (n : Int) : intText n ≠ [] := by
  unfold intText
  split_ifs
  · exact List.cons_ne_nil _ _
  · exact natText_ne_nil _

theorem isDigit_of_mem_natText {n : Nat} {c : Char} (h : c ∈ natText n) : isDigit c = true :=
  Nat.isDigit_of_mem_toDigits (by omega) (by omega) h

theorem head?_natText {n : Nat} (h : n ≠ 0) : (natText n).head? ≠ some '0' := by
  induction n using Nat.strongRecOn with
  | ind n ih =>
    by_cases hn : n < 10
    · rw [natText_of_lt hn, List.head?_cons, ne_eq, Option.some.injEq, Nat.digitChar_eq_zero]
      exact h
    · rw [natText_of_le (by omega), List.head?_append_of_ne_nil _ (natText_ne_nil _)]
      exact ih (n / 10) (by omega) (by omega)

/-- A run of digits ends where the digits end. -/
theorem takeDigits_append {digits rest : List Char} (hd : ∀ c ∈ digits, isDigit c = true)
    (hr : ∀ c ∈ rest.head?, isDigit c = false) : takeDigits (digits ++ rest) = (digits, rest) := by
  rw [takeDigits, List.takeWhile_append_of_pos hd, List.dropWhile_append_of_pos hd]
  cases rest with
  | nil => simp
  | cons c rest =>
    have hc : isDigit c = false := hr c rfl
    simp [hc]

/-- What is taken are the digits in front of the first other character. -/
theorem takeDigits_eq_iff {text digits rest : List Char} :
    takeDigits text = (digits, rest) ↔
      text = digits ++ rest ∧ (∀ c ∈ digits, isDigit c = true) ∧
        ∀ c ∈ rest.head?, isDigit c = false := by
  constructor
  · intro h
    obtain ⟨rfl, rfl⟩ := Prod.mk.inj h
    refine ⟨List.takeWhile_append_dropWhile.symm, fun c hc => List.mem_takeWhile_imp hc, ?_⟩
    intro c hc
    have h := List.head?_dropWhile_not isDigit text
    rw [Option.mem_def.mp hc] at h
    exact h
  · intro h
    obtain ⟨rfl, hd, hr⟩ := h
    exact takeDigits_append hd hr

theorem takeDigits_append_of_eq {text digits rest : List Char}
    (h : takeDigits text = (digits, rest)) {more : List Char}
    (hm : ∀ c ∈ more.head?, isDigit c = false) :
    takeDigits (text ++ more) = (digits, rest ++ more) := by
  obtain ⟨rfl, hd, hr⟩ := takeDigits_eq_iff.mp h
  rw [List.append_assoc]
  refine takeDigits_append hd ?_
  cases rest with
  | nil => exact hm
  | cons => exact hr

/-- One more digit. -/
def nextDigit (n : Nat) (c : Char) : Nat := 10 * n + digitValue c

theorem foldl_nextDigit (digits : List Char) (n : Nat) :
    digits.foldl nextDigit n = n * 10 ^ digits.length + natValue digits := by
  induction digits generalizing n with
  | nil => simp [natValue]
  | cons c digits ih =>
    have hself : natValue (c :: digits) = digits.foldl nextDigit (nextDigit 0 c) := rfl
    rw [List.foldl_cons, ih, hself, ih, nextDigit, nextDigit, List.length_cons]
    ring

theorem natValue_cons (c : Char) (digits : List Char) :
    natValue (c :: digits) = digitValue c * 10 ^ digits.length + natValue digits := by
  have hself : natValue (c :: digits) = digits.foldl nextDigit (nextDigit 0 c) := rfl
  rw [hself, foldl_nextDigit, nextDigit, Nat.mul_zero, Nat.zero_add]

theorem natValue_concat (digits : List Char) (c : Char) :
    natValue (digits ++ [c]) = 10 * natValue digits + digitValue c := by
  rw [natValue, List.foldl_append]
  rfl

/-- A number is the value of the digits that it is written with. -/
theorem natValue_natText (n : Nat) : natValue (natText n) = n := by
  induction n using Nat.strongRecOn with
  | ind n ih =>
    by_cases hn : n < 10
    · rw [natText_of_lt hn, natValue_cons, digitValue_digitChar hn]
      simp [natValue]
    · have hdigit : digitValue (n % 10).digitChar = n % 10 := digitValue_digitChar (by omega)
      rw [natText_of_le (by omega), natValue_concat, ih (n / 10) (by omega), hdigit]
      omega

theorem digitValue_lt {c : Char} (h : isDigit c = true) : digitValue c < 10 := by
  rw [isDigit, Bool.and_eq_true, decide_eq_true_eq, decide_eq_true_eq] at h
  have hmost : c.toNat ≤ '9'.toNat := h.2
  have hnine : '9'.toNat = 57 := rfl
  have hzero : '0'.toNat = 48 := rfl
  rw [digitValue]
  omega

theorem natValue_lt {digits : List Char} (h : ∀ c ∈ digits, isDigit c = true) :
    natValue digits < 10 ^ digits.length := by
  induction digits with
  | nil => simp [natValue]
  | cons c digits ih =>
    rw [List.forall_mem_cons] at h
    have hc := digitValue_lt h.1
    have hrest := ih h.2
    rw [natValue_cons, List.length_cons, Nat.pow_succ]
    calc _ < digitValue c * 10 ^ digits.length + 10 ^ digits.length := Nat.add_lt_add_left hrest _
      _ = (digitValue c + 1) * 10 ^ digits.length := by ring
      _ ≤ 10 * 10 ^ digits.length := Nat.mul_le_mul_right _ (by omega)
      _ = 10 ^ digits.length * 10 := Nat.mul_comm _ _

end ClaimMapping.Decimal
