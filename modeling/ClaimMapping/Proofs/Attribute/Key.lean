import ClaimMapping.Attribute.Key
import ClaimMapping.Proofs.Text.Search

namespace ClaimMapping.Attribute

/-- A character of a custom name. -/
def IsNameChar (c : Char) : Prop := ('a' ≤ c ∧ c ≤ 'z') ∨ ('0' ≤ c ∧ c ≤ '9') ∨ c = '_'

/-- A custom name of 1 to 100 characters. -/
def IsName (name : String) : Prop :=
  1 ≤ name.length ∧ name.length ≤ 100 ∧ ∀ c ∈ name.toList, IsNameChar c

theorem isNameChar_iff {c : Char} : isNameChar c = true ↔ IsNameChar c := by
  simp [isNameChar, IsNameChar, or_assoc]

theorem isValidName_iff {name : String} : isValidName name = true ↔ IsName name := by
  have hl : name.toList.length = name.length := String.length_toList
  have hpos : name.toList.isEmpty = false ↔ 1 ≤ name.length := by
    rw [← hl, List.isEmpty_eq_false_iff, Nat.one_le_iff_ne_zero, ← List.length_eq_zero_iff.ne]
  simp only [isValidName, Bool.and_eq_true, Bool.not_eq_true', hpos, hl, decide_eq_true_eq,
    List.all_eq_true, isNameChar_iff, IsName, and_assoc]

theorem customKey_toList (name : String) :
    (customKey name).toList = "attribute.".toList ++ name.toList := by
  simp [customKey, customFamily]

theorem customKey_inj {a b : String} : customKey a = customKey b ↔ a = b := by
  rw [← String.toList_inj, customKey_toList, customKey_toList, List.append_cancel_left_eq,
    String.toList_inj]

theorem Key.read?_customKey (name : String) : Key.read? (customKey name) = some (.custom name) := by
  have hs : customKey name ≠ subjectKey := by
    intro h
    have h' := congrArg String.toList h
    simp [customKey_toList, subjectKey] at h'
  have hg : customKey name ≠ groupsKey := by
    intro h
    have h' := congrArg String.toList h
    simp [customKey_toList, groupsKey] at h'
  have hp : Text.stripStart? (customKey "").toList (customKey name).toList = some name.toList := by
    rw [Text.stripStart?_eq_some_iff, customKey_toList, customKey_toList, String.toList_empty,
      List.append_nil]
  rw [read?, if_neg hs, if_neg hg, hp, Option.map_some, String.ofList_toList]

theorem Key.text_of_read? {key : String} {k : Key} (h : Key.read? key = some k) : k.text = key := by
  unfold read? at h
  by_cases hs : key = subjectKey
  · rw [if_pos hs] at h
    cases h
    exact hs.symm
  rw [if_neg hs] at h
  by_cases hg : key = groupsKey
  · rw [if_pos hg] at h
    cases h
    exact hg.symm
  rw [if_neg hg] at h
  obtain ⟨rest, hr, he⟩ := Option.map_eq_some_iff.mp h
  cases he
  rw [Text.stripStart?_eq_some_iff, customKey_toList, String.toList_empty, List.append_nil] at hr
  rw [text, ← String.toList_inj, hr, customKey_toList]
  exact congrArg ("attribute.".toList ++ ·) String.toList_ofList

/-- A key is read back from the text that it is written as. -/
theorem Key.read?_text (k : Key) : Key.read? k.text = some k := by
  cases k with
  | subject => rfl
  | groups => rfl
  | custom name => exact read?_customKey name

/-- Reading a key is the inverse of writing it. -/
theorem Key.read?_eq_some_iff {key : String} {k : Key} : Key.read? key = some k ↔ key = k.text :=
  ⟨fun h => (text_of_read? h).symm, fun h => h ▸ read?_text k⟩

theorem Key.read?_eq_none_iff {key : String} :
    Key.read? key = none ↔ key ≠ subjectKey ∧ key ≠ groupsKey ∧ ∀ name, key ≠ customKey name := by
  constructor
  · intro h
    have other (k : Key) : key ≠ k.text := by
      intro h
      subst h
      rw [read?_text] at h
      cases h
    exact ⟨other .subject, other .groups, fun name => other (.custom name)⟩
  · intro h
    obtain ⟨hs, hg, hc⟩ := h
    cases hk : read? key with
    | none => rfl
    | some k =>
      have ht := read?_eq_some_iff.mp hk
      cases k with
      | subject => exact absurd ht hs
      | groups => exact absurd ht hg
      | custom name => exact absurd ht (hc name)

theorem isCustomKey_iff {key : String} : isCustomKey key = true ↔ ∃ name, key = customKey name := by
  unfold isCustomKey
  split
  next name h => exact ⟨fun _ => ⟨name, Key.read?_eq_some_iff.mp h⟩, fun _ => rfl⟩
  next h =>
    refine ⟨fun hf => absurd hf Bool.false_ne_true, ?_⟩
    intro h
    obtain ⟨name, rfl⟩ := h
    exact absurd (Key.read?_customKey name) (h name)

theorem isCustomKey_eq_isPrefixOf (key : String) :
    isCustomKey key = "attribute.".toList.isPrefixOf key.toList := by
  rw [Bool.eq_iff_iff, isCustomKey_iff, List.isPrefixOf_iff_prefix]
  constructor
  · intro h
    obtain ⟨name, rfl⟩ := h
    exact ⟨name.toList, (customKey_toList name).symm⟩
  · intro h
    obtain ⟨rest, h⟩ := h
    refine ⟨String.ofList rest, ?_⟩
    rw [← String.toList_inj, customKey_toList, ← h]
    exact congrArg ("attribute.".toList ++ ·) String.toList_ofList.symm

end ClaimMapping.Attribute
