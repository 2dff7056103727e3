import ClaimMapping.Proofs.Attribute.Family
import ClaimMapping.Proofs.Attribute.Key
import ClaimMapping.Proofs.Journal.Outcome
import ClaimMapping.Proofs.Json.Tree

namespace ClaimMapping.Attribute

open Json (WellFormed depth reals)

theorem inFamily_of_read? {key : String} (h : (Key.read? key).isSome) : InFamily key := by
  obtain ⟨k, hk⟩ := Option.isSome_iff_exists.mp h
  rw [Key.read?_eq_some_iff.mp hk]
  cases k with
  | subject => exact ⟨"subject", .inl rfl⟩
  | groups => exact ⟨"groups", .inl rfl⟩
  | custom name => exact ⟨name, .inr (attribute_point_append name).symm⟩

theorem not_inFamily_assertionName : ¬ InFamily assertionName :=
  familyOf?_eq_none_iff.mp rfl

/-- Without the name of the family in front of their keys. -/
def membersOf {α : Type} (family : String) (flat : KeyMap α) : KeyMap α :=
  flat.filterMap fun e =>
    (familyOf? e.1).bind fun k => if k.1 = family then some (k.2, e.2) else none

theorem membersOf_cons_self {α : Type} {family : String}
    (h : family = reservedFamily ∨ family = customFamily) (name : String) (value : α)
    (flat : KeyMap α) :
    membersOf family ((family ++ "." ++ name, value) :: flat) =
      (name, value) :: membersOf family flat := by
  refine List.filterMap_cons_some ?_
  rw [familyOf?_eq_some_iff.mpr ⟨h, rfl⟩, Option.bind_some, if_pos rfl]

theorem membersOf_cons_of_ne {α : Type} {family key : String}
    (h : ∀ name, familyOf? key ≠ some (family, name)) (value : α) (flat : KeyMap α) :
    membersOf family ((key, value) :: flat) = membersOf family flat := by
  refine List.filterMap_cons_none ?_
  dsimp only
  cases hk : familyOf? key with
  | none => rfl
  | some k =>
    obtain ⟨f, name⟩ := k
    rw [Option.bind_some, if_neg]
    intro h
    subst h
    exact h name hk

/-- The members of a family are found under their names, as the flat map has them under their
keys. -/
theorem get?_membersOf {α : Type} {family : String}
    (h : family = reservedFamily ∨ family = customFamily) (flat : KeyMap α) (name : String) :
    KeyMap.get? (membersOf family flat) name = KeyMap.get? flat (family ++ "." ++ name) := by
  induction flat with
  | nil => rfl
  | cons e flat ih =>
    obtain ⟨key, value⟩ := e
    by_cases hk : ∃ n, familyOf? key = some (family, n)
    · obtain ⟨n, hn⟩ := hk
      obtain ⟨-, rfl⟩ := familyOf?_eq_some_iff.mp hn
      rw [membersOf_cons_self h, KeyMap.get?_cons, KeyMap.get?_cons, ih]
      have hiff : family ++ "." ++ name = family ++ "." ++ n ↔ name = n := by
        rw [← String.toList_inj, toList_append_point_append, toList_append_point_append,
          List.append_cancel_left_eq, List.cons_inj_right, String.toList_inj]
      rw [if_congr hiff rfl rfl]
    · rw [not_exists] at hk
      rw [membersOf_cons_of_ne hk, ih, KeyMap.get?_cons_of_ne]
      intro h
      subst h
      exact hk name (familyOf?_eq_some_iff.mpr ⟨h, rfl⟩)

theorem nodup_keys_membersOf {α : Type} {family : String}
    (h : family = reservedFamily ∨ family = customFamily) {flat : KeyMap α}
    (hf : (KeyMap.keys flat).Nodup) : (KeyMap.keys (membersOf family flat)).Nodup := by
  induction flat with
  | nil => exact List.nodup_nil
  | cons e flat ih =>
    obtain ⟨key, value⟩ := e
    obtain ⟨hnot, hflat⟩ := List.nodup_cons.mp hf
    by_cases hk : ∃ n, familyOf? key = some (family, n)
    · obtain ⟨n, hn⟩ := hk
      obtain ⟨-, rfl⟩ := familyOf?_eq_some_iff.mp hn
      rw [membersOf_cons_self h, KeyMap.keys_cons]
      refine List.nodup_cons.mpr ⟨?_, ih hflat⟩
      rwa [← KeyMap.get?_eq_none_iff, get?_membersOf h, KeyMap.get?_eq_none_iff]
    · rw [membersOf_cons_of_ne (not_exists.mp hk)]
      exact ih hflat

/-- Three variables, in the order of a map. -/
def bundle (assertion : Json) (custom reserved : KeyMap Json) : KeyMap Json :=
  [(assertionName, assertion), (customFamily, .object custom), (reservedFamily, .object reserved)]

theorem mem_bundle_iff {assertion : Json} {custom reserved : KeyMap Json} {e : String × Json} :
    e ∈ bundle assertion custom reserved ↔ e = (assertionName, assertion) ∨
      e = (customFamily, .object custom) ∨ e = (reservedFamily, .object reserved) := by
  simp only [bundle, List.mem_cons, List.not_mem_nil, or_false]

theorem ordered_bundle (assertion : Json) (custom reserved : KeyMap Json) :
    KeyMap.Ordered (bundle assertion custom reserved) := by
  have h : [assertionName, customFamily, reservedFamily].Pairwise (· < ·) := by decide
  exact h

theorem emptyFamilies_eq_bundle : emptyFamilies = bundle (.object []) [] [] := rfl

section

variable (assertion : Json) (custom reserved : KeyMap Json)

theorem nestEntry_reserved (name : String) (value : Json) :
    nestEntry (bundle assertion custom reserved) (reservedFamily ++ "." ++ name) value =
      .ok (bundle assertion custom (KeyMap.insert reserved name value)) :=
  nestEntry_of_family (.inl rfl)

theorem nestEntry_custom (name : String) (value : Json) :
    nestEntry (bundle assertion custom reserved) (customFamily ++ "." ++ name) value =
      .ok (bundle assertion (KeyMap.insert custom name value) reserved) :=
  nestEntry_of_family (.inr rfl)

theorem nestEntry_assertion (members : KeyMap Json) :
    nestEntry (bundle assertion custom reserved) assertionName (.object members) =
      .ok (bundle (.object members) custom reserved) := rfl

end

/-- Every entry is a member of the family in its key, or the assertion. -/
theorem nestAll_bundle {flat : KeyMap Json} (hn : (KeyMap.keys flat).Nodup)
    (hf : ∀ e ∈ flat, InFamily e.1 ∨ e.1 = assertionName ∧ ∃ members, e.2 = .object members)
    (assertion : Json) (custom reserved : KeyMap Json) :
    nestAll (bundle assertion custom reserved) flat =
      .ok (bundle ((KeyMap.get? flat assertionName).getD assertion)
        (KeyMap.insertAll custom (membersOf customFamily flat))
        (KeyMap.insertAll reserved (membersOf reservedFamily flat))) := by
  induction flat generalizing assertion custom reserved with
  | nil => rfl
  | cons e flat ih =>
    obtain ⟨key, value⟩ := e
    obtain ⟨hnot, hflat⟩ := List.nodup_cons.mp hn
    obtain ⟨hentry, hrest⟩ := List.forall_mem_cons.mp hf
    rw [nestAll_cons]
    obtain ⟨name, rfl | rfl⟩ | ⟨rfl, members, rfl⟩ := hentry
    · have hother (n : String) : familyOf? ("google." ++ name) ≠ some (customFamily, n) := by
        rw [familyOf?_google]
        exact fun h => absurd (Prod.mk.inj (Option.some.inj h)).1 (by decide)
      have hne : assertionName ≠ "google." ++ name := fun h =>
        not_inFamily_assertionName ⟨name, .inl h⟩
      rw [membersOf_cons_of_ne hother, KeyMap.get?_cons_of_ne hne, google_point_append,
        nestEntry_reserved, Journal.ok_bind, ih hflat hrest, membersOf_cons_self (.inl rfl)]
      rfl
    · have hother (n : String) : familyOf? ("attribute." ++ name) ≠ some (reservedFamily, n) := by
        rw [familyOf?_attribute]
        exact fun h => absurd (Prod.mk.inj (Option.some.inj h)).1 (by decide)
      have hne : assertionName ≠ "attribute." ++ name := fun h =>
        not_inFamily_assertionName ⟨name, .inr h⟩
      rw [membersOf_cons_of_ne hother, KeyMap.get?_cons_of_ne hne, attribute_point_append,
        nestEntry_custom, Journal.ok_bind, ih hflat hrest, membersOf_cons_self (.inr rfl)]
      rfl
    · have hnone : KeyMap.get? flat assertionName = none := KeyMap.get?_eq_none_iff.mpr hnot
      have hother (family n : String) : familyOf? assertionName ≠ some (family, n) := by
        rw [familyOf?_eq_none_iff.mpr not_inFamily_assertionName]
        exact (Option.some_ne_none _).symm
      rw [membersOf_cons_of_ne (hother _), membersOf_cons_of_ne (hother _), nestEntry_assertion,
        Journal.ok_bind, ih hflat hrest, KeyMap.get?_cons_self, hnone]
      rfl

/-- The attributes of the keys in a family, each under the rest of its key. -/
structure IsFamilyOf (family : String) (d : Derived) (members : KeyMap Json) : Prop where
  ordered : KeyMap.Ordered members
  get?_eq (name : String) : KeyMap.get? members name =
    (KeyMap.get? d (family ++ "." ++ name)).map Value.toJson

/-- What nesting collects for a family is the object of the derived attributes of that family, and
of no others. -/
theorem isFamilyOf_ofList {family : String} (h : family = reservedFamily ∨ family = customFamily)
    {raw : KeyMap Json} (hr : KeyMap.Ordered raw) {d : Derived} (hd : KeyMap.Ordered d)
    (hraw : ∀ name, KeyMap.get? raw (family ++ "." ++ name) = none) :
    IsFamilyOf family d (KeyMap.ofList (membersOf family (overlay raw d))) where
  ordered := KeyMap.ordered_ofList _
  get?_eq name := by
    have hn := nodup_keys_membersOf h (ordered_overlay hr d).nodup
    rw [KeyMap.ofList, KeyMap.get?_insertAll [] hn, get?_membersOf h, get?_overlay raw hd, hraw,
      KeyMap.get?_nil, Option.or_none, Option.or_none]

/-- Over an assertion that is an object the attributes give their two families, and nothing of the
assertion is in them. -/
theorem nest_overlay {d : Derived} (hd : KeyMap.Ordered d)
    (hk : ∀ key ∈ KeyMap.keys d, InFamily key) (members : KeyMap Json) :
    ∃ custom reserved, nest (overlay [(assertionName, .object members)] d) =
        .ok (bundle (.object members) custom reserved) ∧
      IsFamilyOf customFamily d custom ∧ IsFamilyOf reservedFamily d reserved := by
  have hr : KeyMap.Ordered [(assertionName, Json.object members)] :=
    KeyMap.ordered_cons.mpr ⟨by simp, KeyMap.ordered_nil⟩
  have hraw {key : String} (h : InFamily key) :
      KeyMap.get? [(assertionName, Json.object members)] key = none := by
    rw [KeyMap.get?_cons_of_ne, KeyMap.get?_nil]
    intro h
    subst h
    exact not_inFamily_assertionName h
  have ho := ordered_overlay hr d
  have hentries : ∀ e ∈ overlay [(assertionName, .object members)] d,
      InFamily e.1 ∨ e.1 = assertionName ∧ ∃ ms, e.2 = Json.object ms := by
    intro e he
    obtain ⟨key, value⟩ := e
    by_cases hf : InFamily key
    · exact .inl hf
    · have hmem := (mem_overlay_iff hr hd hk hf).mp he
      obtain ⟨rfl, rfl⟩ := Prod.mk.inj (List.mem_singleton.mp hmem)
      exact .inr ⟨rfl, members, rfl⟩
  have hassertion : KeyMap.get? (overlay [(assertionName, .object members)] d) assertionName =
      some (.object members) := by
    rw [ho.get?_eq_some_iff, mem_overlay_iff hr hd hk not_inFamily_assertionName]
    exact List.mem_singleton.mpr rfl
  refine ⟨_, _, ?_, isFamilyOf_ofList (.inr rfl) hr hd fun name => hraw ?_,
    isFamilyOf_ofList (.inl rfl) hr hd fun name => hraw ?_⟩
  · rw [nest, emptyFamilies_eq_bundle, nestAll_bundle ho.nodup hentries, hassertion]
    rfl
  · exact ⟨name, .inr (attribute_point_append name).symm⟩
  · exact ⟨name, .inl (google_point_append name).symm⟩

theorem wellFormed_toJson (v : Value) : WellFormed v.toJson := by
  cases v with
  | text s => exact .string s
  | list items => exact Json.wellFormed_strings items

theorem depth_toJson_le (v : Value) : depth v.toJson ≤ 1 := by
  cases v with
  | text s => exact Nat.zero_le _
  | list items => rw [Value.toJson, depth, Json.itemsDepth_strings]

theorem reals_toJson (v : Value) : reals v.toJson = [] := by
  cases v with
  | text s => rfl
  | list items => rw [Value.toJson, reals, Json.itemsReals_strings]

theorem IsFamilyOf.exists_toJson {family : String} {d : Derived} {members : KeyMap Json}
    (h : IsFamilyOf family d members) : ∀ e ∈ members, ∃ v : Value, e.2 = v.toJson := by
  intro e he
  obtain ⟨name, j⟩ := e
  have hj := h.ordered.get?_eq_some_iff.mpr he
  rw [h.get?_eq] at hj
  obtain ⟨v, -, rfl⟩ := Option.map_eq_some_iff.mp hj
  exact ⟨v, rfl⟩

theorem IsFamilyOf.wellFormed {family : String} {d : Derived} {members : KeyMap Json}
    (h : IsFamilyOf family d members) : WellFormed (.object members) := by
  refine .object h.ordered fun e he => ?_
  obtain ⟨v, hv⟩ := h.exists_toJson e he
  exact hv ▸ wellFormed_toJson v

theorem IsFamilyOf.depth_le {family : String} {d : Derived} {members : KeyMap Json}
    (h : IsFamilyOf family d members) : depth (.object members) ≤ 2 := by
  have hmembers : Json.membersDepth members ≤ 1 := by
    refine Json.membersDepth_le_iff.mpr fun e he => ?_
    obtain ⟨v, hv⟩ := h.exists_toJson e he
    exact hv ▸ depth_toJson_le v
  rw [depth]
  omega

/-- No number of a family is a real, so nothing of it changes when it is written and read again. -/
theorem IsFamilyOf.not_mem_reals {family : String} {d : Derived} {members : KeyMap Json}
    (h : IsFamilyOf family d members) (x : Float) : x ∉ reals (.object members) := by
  rw [reals, Json.mem_membersReals_iff]
  intro h
  obtain ⟨e, he, hx⟩ := h
  obtain ⟨v, hv⟩ := h.exists_toJson e he
  rw [hv, reals_toJson] at hx
  cases hx

end ClaimMapping.Attribute
