import ClaimMapping.Proofs.Attribute.Name
import ClaimMapping.Proofs.Attribute.Nested
import ClaimMapping.Proofs.Mapping.Acceptance
import Mathlib

namespace ClaimMapping.Attribute

open KeyMap (get?)

namespace Key

/-- The family that a key belongs to. -/
def family : Key → String
  | .subject => reservedFamily
  | .groups => reservedFamily
  | .custom _ => customFamily

/-- What stands behind the family. -/
def name : Key → String
  | .subject => "subject"
  | .groups => "groups"
  | .custom name => name

theorem isFamily_family (k : Key) : IsFamily k.family := by
  cases k with
  | subject => exact .inl rfl
  | groups => exact .inl rfl
  | custom => exact .inr rfl

theorem text_eq (k : Key) : k.text = k.family ++ "." ++ k.name := by
  cases k with
  | subject => rfl
  | groups => rfl
  | custom => rfl

theorem familyOf?_text (k : Key) : familyOf? k.text = some (k.family, k.name) :=
  familyOf?_eq_some_iff.mpr ⟨k.isFamily_family, k.text_eq⟩

theorem read?_eq_none_iff_not_prefix {key : String} :
    read? key = none ↔
      key ≠ subjectKey ∧ key ≠ groupsKey ∧ ¬ "attribute.".toList <+: key.toList := by
  rw [read?_eq_none_iff, ← not_exists, ← isCustomKey_iff, isCustomKey_eq_isPrefixOf,
    List.isPrefixOf_iff_prefix]

end Key

/-- Keys that are split alike are the same, so each derived attribute has a place of its own. -/
theorem eq_of_familyOf?_eq {key other : String} (h : familyOf? key ≠ none)
    (heq : familyOf? key = familyOf? other) : key = other := by
  obtain ⟨place, hkey⟩ := Option.ne_none_iff_exists'.mp h
  obtain ⟨family, name⟩ := place
  have hother := familyOf?_eq_some_iff.mp (heq.symm.trans hkey)
  exact (familyOf?_eq_some_iff.mp hkey).2.trans hother.2.symm

/-- The value under the name of a key in the family of the key. -/
def valueAt? (nested : KeyMap Json) (k : Key) : Option Json :=
  (get? nested k.family).bind (Json.member? · k.name)

/-- A value is found in the nested form under the family and the name of its key. -/
theorem IsNested.valueAt?_eq {flat nested : KeyMap Json} (h : IsNested flat nested) {k : Key}
    {value : Json} (hvalue : get? flat k.text = some value) :
    valueAt? nested k = some value := by
  obtain ⟨members, hmembers, -, hget⟩ := h.family k.isFamily_family
  rw [valueAt?, hmembers, Option.bind_some]
  change get? members k.name = some value
  rw [hget, ← k.text_eq, hvalue, Option.some_or]

theorem IsName.point_not_mem {name : String} (h : IsName name) : '.' ∉ name.toList := by
  intro hmem
  have hpoint : ¬ IsNameChar '.' := by
    rw [← isNameChar_iff]
    decide
  exact hpoint (h.2.2 '.' hmem)

end ClaimMapping.Attribute

namespace ClaimMapping.Mapping

open Attribute
open KeyMap (Ordered get? keys)
open Text.Utf8 (bytes)

/-- A key that is let through can be read, and its name has no point in it. -/
theorem exists_key_of_check {r : Request} {m : KeyMap String} (hcheck : r.check = .ok m)
    (hsources : checkSources m r.condition = .ok ()) {key : String} (hkey : key ∈ keys m) :
    ∃ k : Key, Key.read? key = some k ∧ '.' ∉ k.name.toList := by
  obtain ⟨-, -, -, htarget⟩ := Request.check_eq_ok_iff.mp hcheck
  obtain ⟨-, -, hnames, -⟩ := checkSources_eq_ok_iff.mp hsources
  obtain rfl | rfl | ⟨name, rfl⟩ := htarget key hkey
  · exact ⟨.subject, rfl, by decide⟩
  · exact ⟨.groups, rfl, by decide⟩
  · exact ⟨.custom name, Key.read?_customKey name, (hnames name hkey).point_not_mem⟩

/-- A custom key is read as its name and as nothing else, and the keys that cannot be read are
those that are not reserved and have another prefix. The names that are valid are known by their
bytes and by a pattern. Of a key that a run lets through, the first point gives the family and the
name that were read, no two such keys have both in common, and the value of each stands there in the
nested form. -/
theorem key_readings_agree :
    (∀ name, Key.read? (customKey name) = some (.custom name)) ∧
    (∀ key name, Key.read? key = some (.custom name) → key = customKey name) ∧
    (∀ key, Key.read? key = none ↔
      key ≠ "google.subject" ∧ key ≠ "google.groups" ∧ ¬ "attribute.".toList <+: key.toList) ∧
    (∀ name, isValidName name = true ↔
      1 ≤ (bytes name).length ∧ (bytes name).length ≤ 100 ∧ ∀ b ∈ bytes name, IsNameByte b) ∧
    (∃ pattern, Regex.read? Regex.fits namePattern.toList = some pattern ∧
      ∀ name, isValidName name = pattern.hasMatch name.toList) ∧
    ∀ (r : Request) (m : KeyMap String), r.check = .ok m →
      checkSources m r.condition = .ok () →
      (∀ key ∈ keys m, ∃ k, Key.read? key = some k ∧ familyOf? key = some (k.family, k.name) ∧
        '.' ∉ k.name.toList) ∧
      (∀ key ∈ keys m, ∀ other ∈ keys m, familyOf? key = familyOf? other → key = other) ∧
      ∀ raw d nested, Ordered raw → Ordered d → keys d ⊆ keys m →
        nest (overlay raw d) = .ok nested → ∀ key value, get? d key = some value →
        ∃ k, Key.read? key = some k ∧ valueAt? nested k = some value.toJson := by
  refine ⟨Key.read?_customKey, ?_, ?_, ?_, ?_, ?_⟩
  · exact fun key name h => Key.read?_eq_some_iff.mp h
  · exact fun key => Key.read?_eq_none_iff_not_prefix
  · exact fun name => isValidName_iff.trans isName_iff_bytes
  · refine ⟨Regex.wholeRun nameSet 1 100, read?_namePattern, fun name => ?_⟩
    rw [Bool.eq_iff_iff, isValidName_iff, isName_iff_hasMatch]
  refine fun r m hcheck hsources => ⟨?_, ?_, ?_⟩
  · intro key hkey
    obtain ⟨k, hread, hpoint⟩ := exists_key_of_check hcheck hsources hkey
    obtain rfl := Key.read?_eq_some_iff.mp hread
    exact ⟨k, hread, k.familyOf?_text, hpoint⟩
  · intro key hkey other _ heq
    obtain ⟨k, hread, -⟩ := exists_key_of_check hcheck hsources hkey
    obtain rfl := Key.read?_eq_some_iff.mp hread
    refine eq_of_familyOf?_eq ?_ heq
    rw [k.familyOf?_text]
    exact Option.some_ne_none _
  · intro raw d nested hraw hd hkeys hnest key value hvalue
    have hmem : key ∈ keys d := by
      by_contra hnone
      rw [KeyMap.get?_eq_none_iff.mpr hnone] at hvalue
      cases hvalue
    obtain ⟨k, hread, -⟩ := exists_key_of_check hcheck hsources (hkeys hmem)
    obtain rfl := Key.read?_eq_some_iff.mp hread
    refine ⟨k, hread, (isNested_of_nest (ordered_overlay hraw d) hnest).valueAt?_eq ?_⟩
    rw [get?_overlay raw hd, hvalue]
    rfl

/-- A mapping of the subject and of an attribute that is named like the other family. -/
theorem key_readings_google :
    ∃ (r : Request) (m : KeyMap String) (nested : KeyMap Json), r.check = .ok m ∧
      checkSources m r.condition = .ok () ∧
      nest (overlay [("assertion", .object [])]
        [("attribute.google", .text "a"), ("google.subject", .text "s")]) = .ok nested ∧
      ∃ k, Key.read? "attribute.google" = some k ∧ valueAt? nested k = some (.string "a") := by
  let m : KeyMap String := [("attribute.google", "'a'"), ("google.subject", "'s'")]
  let r : Request := ⟨"payload", some m, "", none⟩
  let raw : KeyMap Json := [("assertion", .object [])]
  let d : Derived := [("attribute.google", .text "a"), ("google.subject", .text "s")]
  have hcheck : r.check = .ok m := Journal.eq_ok_of_toOption (by decide +kernel)
  have hsources : checkSources m r.condition = .ok () :=
    Journal.eq_ok_of_toOption (by decide +kernel)
  have hsome : (nest (overlay raw d)).toOption.isSome = true := by decide +kernel
  obtain ⟨nested, hnested⟩ := Option.isSome_iff_exists.mp hsome
  have hnest : nest (overlay raw d) = .ok nested := Journal.eq_ok_of_toOption hnested
  have hraw : Ordered raw := List.pairwise_singleton _ _
  have hd : Ordered d := by
    unfold Ordered
    decide
  obtain ⟨-, -, -, -, -, hrun⟩ := key_readings_agree
  obtain ⟨-, -, hplace⟩ := hrun r m hcheck hsources
  have hvalue := hplace raw d nested hraw hd (List.Subset.refl _) hnest "attribute.google"
    (.text "a") rfl
  exact ⟨r, m, nested, hcheck, hsources, hnest, hvalue⟩

end ClaimMapping.Mapping
