import ClaimMapping.Proofs.Attribute.Key
import ClaimMapping.Proofs.Regex.Repetition
import ClaimMapping.Proofs.Text.Utf8
import Mathlib

namespace ClaimMapping.Attribute

open Regex (CharSet wholeRun)
open Text.Utf8 (bytes encode encodeChar encodeChar_of_lt le_of_mem_encodeChar)

/-- A byte of a custom name. -/
def IsNameByte (b : ℕ) : Prop :=
  ('a'.toNat ≤ b ∧ b ≤ 'z'.toNat) ∨ ('0'.toNat ≤ b ∧ b ≤ '9'.toNat) ∨ b = '_'.toNat

theorem isNameByte_toNat_iff {c : Char} : IsNameByte c.toNat ↔ IsNameChar c := by
  rw [IsNameByte, Char.toNat_inj]
  rfl

theorem IsNameByte.lt {b : ℕ} (h : IsNameByte b) : b < 0x80 := by
  have hz : 'z'.toNat < 0x80 := by decide
  have h9 : '9'.toNat < 0x80 := by decide
  obtain ⟨-, hle⟩ | ⟨-, hle⟩ | rfl := h
  · omega
  · omega
  · decide

theorem forall_mem_encodeChar_iff {c : Char} :
    (∀ b ∈ encodeChar c, IsNameByte b.toNat) ↔ IsNameChar c := by
  by_cases h : c.toNat < 0x80
  · rw [← List.forall_mem_map, encodeChar_of_lt h, List.forall_mem_singleton, isNameByte_toNat_iff]
  · refine iff_of_false (fun hall => ?_) fun hc => h (isNameByte_toNat_iff.mpr hc).lt
    obtain ⟨b, hb⟩ := List.exists_mem_of_ne_nil _ (Text.Utf8.encodeChar_ne_nil c)
    have hle := le_of_mem_encodeChar (not_lt.mp h) b hb
    have hlt := (hall b hb).lt
    omega

theorem forall_mem_bytes_iff {name : String} :
    (∀ b ∈ bytes name, IsNameByte b) ↔ ∀ c ∈ name.toList, IsNameChar c := by
  rw [bytes, List.forall_mem_map, encode]
  simp only [List.mem_flatMap, forall_exists_index, and_imp, ← forall_mem_encodeChar_iff]
  exact ⟨fun h c hc b hb => h b c hc hb, fun h b c hc hb => h c hc b hb⟩

theorem length_encode {text : List Char} (h : ∀ c ∈ text, IsNameChar c) :
    (encode text).length = text.length := by
  induction text with
  | nil => rfl
  | cons c text ih =>
    obtain ⟨hc, htext⟩ := List.forall_mem_cons.mp h
    have hone := congrArg List.length (encodeChar_of_lt (isNameByte_toNat_iff.mpr hc).lt)
    rw [List.length_map, List.length_singleton] at hone
    rw [Text.Utf8.encode_cons, List.length_append, ih htext, hone, List.length_cons, Nat.add_comm]

/-- All characters of a name are single bytes, so it makes no difference which of the two its length
counts. -/
theorem isName_iff_bytes {name : String} :
    IsName name ↔ 1 ≤ (bytes name).length ∧ (bytes name).length ≤ 100 ∧
      ∀ b ∈ bytes name, IsNameByte b := by
  rw [IsName, forall_mem_bytes_iff, ← and_assoc, ← and_assoc]
  refine and_congr_left fun h => ?_
  rw [bytes, List.length_map, length_encode h, String.length_toList]

/-- The names as a regular expression. -/
def namePattern : String := "^[a-z0-9_]\x7b1,100\x7d$"

/-- The set of characters in the pattern. -/
def nameSet : CharSet :=
  .union (.union (.union .none (.range 'a' 'z')) (.range '0' '9')) (.single '_')

theorem read?_namePattern :
    Regex.read? Regex.fits namePattern.toList = some (wholeRun nameSet 1 100) := by decide +kernel

theorem holds_nameSet_iff {c : Char} : nameSet.holds c = true ↔ IsNameChar c := by
  have hsingle : (CharSet.single '_').holds c = true ↔ c = '_' := by
    constructor
    · intro h
      by_contra hne
      rw [Regex.holds_single_of_ne hne] at h
      cases h
    · rintro rfl
      exact Regex.holds_single_self '_'
  simp only [nameSet, CharSet.holds, Bool.or_eq_true, hsingle, Bool.and_eq_true,
    decide_eq_true_eq, Bool.false_eq_true, false_or, IsNameChar, or_assoc]

/-- The anchors stand for the ends of the whole text: a name with a line feed behind it has no
match. -/
theorem isName_iff_hasMatch {name : String} :
    IsName name ↔ (wholeRun nameSet 1 100).hasMatch name.toList = true := by
  rw [Regex.hasMatch_wholeRun_iff (by decide), IsName, String.length_toList]
  simp only [holds_nameSet_iff]
  tauto

end ClaimMapping.Attribute
