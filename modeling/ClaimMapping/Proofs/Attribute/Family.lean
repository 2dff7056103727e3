import ClaimMapping.Attribute.Family
import ClaimMapping.Proofs.Attribute.Key
import ClaimMapping.Proofs.KeyMap.Lookup
import ClaimMapping.Proofs.Text.Search

namespace ClaimMapping.Attribute

/-- In one of the two families of derived attributes. -/
def InFamily (key : String) : Prop := ∃ name, key = "google." ++ name ∨ key = "attribute." ++ name

theorem toList_append_point_append (family name : String) :
    (family ++ "." ++ name).toList = family.toList ++ '.' :: name.toList := by
  rw [String.toList_append, String.toList_append, List.append_assoc]
  rfl

theorem point_not_mem_family {family : String}
    (h : family = reservedFamily ∨ family = customFamily) :
    '.' ∉ family.toList := by
  rcases h with rfl | rfl <;> decide

/-- A key is split at the first point when the part in front of it is one of the two families. -/
theorem familyOf?_eq_some_iff {key family name : String} :
    familyOf? key = some (family, name) ↔
      (family = reservedFamily ∨ family = customFamily) ∧ key = family ++ "." ++ name := by
  have hf : familyOf? key = (Text.breakChar? '.' key.toList).bind fun e =>
      if String.ofList e.1 = reservedFamily ∨ String.ofList e.1 = customFamily then
        some (String.ofList e.1, String.ofList e.2)
      else none := rfl
  rw [hf, Option.bind_eq_some_iff]
  constructor
  · intro h
    obtain ⟨⟨before, rest⟩, hb, he⟩ := h
    obtain ⟨-, hk⟩ := Text.breakChar?_eq_some_iff.mp hb
    split_ifs at he with h
    cases he
    refine ⟨h, String.toList_inj.mp ?_⟩
    rw [hk, toList_append_point_append, String.toList_ofList, String.toList_ofList]
  · intro h
    obtain ⟨h, rfl⟩ := h
    refine ⟨(family.toList, name.toList), ?_, ?_⟩
    · rw [Text.breakChar?_eq_some_iff]
      exact ⟨point_not_mem_family h, toList_append_point_append family name⟩
    · rw [String.ofList_toList, String.ofList_toList, if_pos h]

theorem google_point_append (name : String) : "google." ++ name = reservedFamily ++ "." ++ name :=
  congrArg (· ++ name) (rfl : "google." = reservedFamily ++ ".")

theorem attribute_point_append (name : String) :
    "attribute." ++ name = customFamily ++ "." ++ name :=
  congrArg (· ++ name) (rfl : "attribute." = customFamily ++ ".")

theorem familyOf?_google (name : String) :
    familyOf? ("google." ++ name) = some (reservedFamily, name) :=
  familyOf?_eq_some_iff.mpr ⟨.inl rfl, google_point_append name⟩

theorem familyOf?_attribute (name : String) :
    familyOf? ("attribute." ++ name) = some (customFamily, name) :=
  familyOf?_eq_some_iff.mpr ⟨.inr rfl, attribute_point_append name⟩

theorem familyOf?_eq_none_iff {key : String} : familyOf? key = none ↔ ¬ InFamily key := by
  rw [iff_not_comm]
  constructor
  · intro hf h
    obtain ⟨name, rfl | rfl⟩ := hf
    · rw [familyOf?_google] at h
      cases h
    · rw [familyOf?_attribute] at h
      cases h
  · intro h
    obtain ⟨⟨family, name⟩, he⟩ := Option.ne_none_iff_exists'.mp h
    obtain ⟨rfl | rfl, hk⟩ := familyOf?_eq_some_iff.mp he
    · exact ⟨name, .inl hk⟩
    · exact ⟨name, .inr hk⟩

theorem isObject_eq_false_iff {v : Json} :
    v.isObject = false ↔ ∀ members, v ≠ .object members := by
  cases v <;> simp [Json.isObject]

theorem nestEntry_of_family {nested : KeyMap Json} {family name : String} {value : Json}
    (h : family = reservedFamily ∨ family = customFamily) :
    nestEntry nested (family ++ "." ++ name) value = .ok (addMember nested family name value) := by
  rw [nestEntry, familyOf?_eq_some_iff.mpr ⟨h, rfl⟩]

/-- An entry is refused, and named in the error, when it is neither in a family nor an object. -/
theorem nestEntry_eq_error_iff {nested : KeyMap Json} {key key' : String} {value : Json} :
    nestEntry nested key value = .error key' ↔
      key' = key ∧ ¬ InFamily key ∧ ∀ members, value ≠ .object members := by
  rw [← familyOf?_eq_none_iff, ← isObject_eq_false_iff, nestEntry]
  cases familyOf? key with
  | some e => simp
  | none => cases value.isObject <;> simp [eq_comm]

theorem nestAll_cons (nested : KeyMap Json) (key : String) (value : Json) (flat : KeyMap Json) :
    nestAll nested ((key, value) :: flat) =
      nestEntry nested key value >>= fun nested => nestAll nested flat := rfl

/-- The entry that cannot be nested is the first one that is in no family and holds no object. -/
theorem nestAll_eq_error {nested flat : KeyMap Json} {key : String}
    (h : nestAll nested flat = .error key) :
    ∃ before value after, flat = before ++ (key, value) :: after ∧
      (∀ e ∈ before, InFamily e.1 ∨ ∃ members, e.2 = .object members) ∧
      ¬ InFamily key ∧ ∀ members, value ≠ .object members := by
  induction flat generalizing nested with
  | nil => cases h
  | cons e flat ih =>
    obtain ⟨k, v⟩ := e
    rw [nestAll_cons] at h
    cases hn : nestEntry nested k v with
    | error k' =>
      rw [hn] at h
      cases h
      obtain ⟨rfl, hf, hv⟩ := nestEntry_eq_error_iff.mp hn
      exact ⟨[], v, flat, rfl, by simp, hf, hv⟩
    | ok nested' =>
      rw [hn] at h
      obtain ⟨before, value, after, rfl, hb, hf, hv⟩ := ih h
      refine ⟨(k, v) :: before, value, after, rfl, List.forall_mem_cons.mpr ⟨?_, hb⟩, hf, hv⟩
      by_contra hno
      rw [not_or, not_exists] at hno
      rw [nestEntry_eq_error_iff.mpr ⟨rfl, hno⟩] at hn
      cases hn

theorem nestAll_eq_ok {nested flat nested' : KeyMap Json} (h : nestAll nested flat = .ok nested') :
    ∀ e ∈ flat, InFamily e.1 ∨ ∃ members, e.2 = .object members := by
  induction flat generalizing nested with
  | nil => simp
  | cons e flat ih =>
    obtain ⟨k, v⟩ := e
    rw [nestAll_cons] at h
    cases hn : nestEntry nested k v with
    | error k' =>
      rw [hn] at h
      cases h
    | ok nested'' =>
      rw [hn] at h
      refine List.forall_mem_cons.mpr ⟨?_, ih h⟩
      by_contra hno
      rw [not_or, not_exists] at hno
      rw [nestEntry_eq_error_iff.mpr ⟨rfl, hno⟩] at hn
      cases hn

theorem ordered_overlay {raw : KeyMap Json} (h : KeyMap.Ordered raw) (d : Derived) :
    KeyMap.Ordered (overlay raw d) := h.insertAll _

theorem get?_overlay (raw : KeyMap Json) {d : Derived} (h : KeyMap.Ordered d) (key : String) :
    KeyMap.get? (overlay raw d) key =
      ((KeyMap.get? d key).map Value.toJson).or (KeyMap.get? raw key) := by
  rw [overlay, KeyMap.get?_insertAll raw (h.mapValues _).nodup, KeyMap.get?_mapValues]

/-- Outside of the families the variables are as they were. -/
theorem mem_overlay_iff {raw : KeyMap Json} {d : Derived} (hr : KeyMap.Ordered raw)
    (hd : KeyMap.Ordered d) (hf : ∀ key ∈ KeyMap.keys d, InFamily key) {key : String} {value : Json}
    (hkey : ¬ InFamily key) : (key, value) ∈ overlay raw d ↔ (key, value) ∈ raw := by
  have hn : KeyMap.get? d key = none := KeyMap.get?_eq_none_iff.mpr fun hm => hkey (hf key hm)
  rw [← (ordered_overlay hr d).get?_eq_some_iff, get?_overlay raw hd, hn, ← hr.get?_eq_some_iff]
  rfl

end ClaimMapping.Attribute
