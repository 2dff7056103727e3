import ClaimMapping.Mapping.Error
import ClaimMapping.Proofs.Attribute.Family
import ClaimMapping.Proofs.Journal.Outcome
import ClaimMapping.Proofs.Text.Utf8

namespace ClaimMapping.Attribute

open Journal (bind_eq_ok_iff mapError_eq_error_iff)
open KeyMap (Ordered get? get?_concat keys)
open Text.Utf8 (bytes bytes_strictMono)

variable {flat nested nested' : KeyMap Json} {family key : String} {value : Json}

/-- The families whose members are written behind a point. -/
def IsFamily (name : String) : Prop := name = reservedFamily ∨ name = customFamily

instance : DecidablePred IsFamily := fun name =>
  inferInstanceAs (Decidable (name = reservedFamily ∨ name = customFamily))

theorem inFamily_iff :
    InFamily key ↔ ∃ family name, IsFamily family ∧ key = family ++ "." ++ name := by
  constructor
  · intro h
    obtain ⟨name, rfl | rfl⟩ := h
    · exact ⟨reservedFamily, name, .inl rfl, google_point_append name⟩
    · exact ⟨customFamily, name, .inr rfl, attribute_point_append name⟩
  · intro h
    obtain ⟨family, name, rfl | rfl, rfl⟩ := h
    · exact ⟨name, .inl (google_point_append name).symm⟩
    · exact ⟨name, .inr (attribute_point_append name).symm⟩

theorem IsFamily.inFamily (h : IsFamily family) (name : String) :
    InFamily (family ++ "." ++ name) := inFamily_iff.mpr ⟨family, name, h, rfl⟩

theorem IsFamily.not_inFamily (h : IsFamily family) : ¬ InFamily family := by
  rw [← familyOf?_eq_none_iff]
  obtain rfl | rfl := h <;> rfl

/-- The first point of a key tells its family from its name. -/
theorem IsFamily.point_append_inj {other name name' : String} (h : IsFamily family)
    (h' : IsFamily other) :
    family ++ "." ++ name = other ++ "." ++ name' ↔ family = other ∧ name = name' := by
  constructor
  · intro heq
    have hfamily : familyOf? (family ++ "." ++ name) = some (family, name) :=
      familyOf?_eq_some_iff.mpr ⟨h, rfl⟩
    have hother : familyOf? (family ++ "." ++ name) = some (other, name') :=
      familyOf?_eq_some_iff.mpr ⟨h', heq⟩
    rw [hfamily, Option.some.injEq, Prod.mk.injEq] at hother
    exact hother
  · intro heq
    rw [heq.1, heq.2]

/-- The bare name of a family stands in front of the keys of its members. -/
theorem lt_point_append (family name : String) : family < family ++ "." ++ name := by
  rw [String.lt_iff, toList_append_point_append]
  have hless : family.toList ++ [] < family.toList ++ '.' :: name.toList :=
    List.append_left_lt (List.nil_lt_cons '.' name.toList)
  rwa [List.append_nil] at hless

/-- All that one entry can do: it becomes a member of its family, or it is an object and stays under
its key. -/
theorem nestEntry_cases (h : nestEntry nested key value = .ok nested') :
    (∃ family name, IsFamily family ∧ key = family ++ "." ++ name ∧
      nested' = addMember nested family name value) ∨
    (¬ InFamily key ∧ (∃ members, value = .object members) ∧
      nested' = KeyMap.insert nested key value) := by
  by_cases hkey : InFamily key
  · obtain ⟨family, name, hfamily, rfl⟩ := inFamily_iff.mp hkey
    rw [nestEntry_of_family hfamily] at h
    cases h
    exact .inl ⟨family, name, hfamily, rfl, rfl⟩
  · rw [nestEntry, familyOf?_eq_none_iff.mpr hkey] at h
    dsimp only at h
    split_ifs at h with hobject
    cases h
    refine .inr ⟨hkey, ?_, rfl⟩
    by_contra hnone
    rw [not_exists, ← isObject_eq_false_iff, hobject] at hnone
    cases hnone

/-- The nested form of a flat map. A family holds its members and, where they do not replace them,
those of the object under its bare name; every other key is as it was. -/
structure IsNested (flat nested : KeyMap Json) : Prop where
  ordered : Ordered nested
  family {family : String} (h : IsFamily family) : ∃ members,
    get? nested family = some (.object members) ∧
      (get? flat family = none → Ordered members) ∧
      ∀ name, get? members name = (get? flat (family ++ "." ++ name)).or
        ((get? flat family).bind (Json.member? · name))
  inFamily {key : String} (h : InFamily key) : get? nested key = none
  other {key : String} (hfamily : ¬ IsFamily key) (h : ¬ InFamily key) : get? nested key =
    (get? flat key).or (if key = assertionName then some (.object []) else none)

theorem get?_emptyFamilies (key : String) :
    get? emptyFamilies key = if key ∈ families then some (.object []) else none := by
  have hlist : emptyFamilies = [(assertionName, .object []), (customFamily, .object []),
      (reservedFamily, .object [])] := rfl
  rw [hlist, KeyMap.get?_cons, KeyMap.get?_cons, KeyMap.get?_cons, KeyMap.get?_nil]
  by_cases hassertion : key = assertionName
  · simp [hassertion, families]
  by_cases hcustom : key = customFamily
  · simp [hcustom, families]
  by_cases hreserved : key = reservedFamily
  · simp [hreserved, families]
  · simp [hassertion, hcustom, hreserved, families]

theorem mem_families_iff : key ∈ families ↔ IsFamily key ∨ key = assertionName := by
  simp only [families, List.mem_cons, List.not_mem_nil, or_false, IsFamily]
  tauto

theorem isNested_nil : IsNested [] emptyFamilies where
  ordered := KeyMap.ordered_ofList _
  family h := by
    refine ⟨[], ?_, fun _ => KeyMap.ordered_nil, fun name => rfl⟩
    rw [get?_emptyFamilies, if_pos (mem_families_iff.mpr (.inl h))]
  inFamily {key} h := by
    rw [get?_emptyFamilies, if_neg]
    intro hmem
    obtain hfamily | rfl := mem_families_iff.mp hmem
    · exact hfamily.not_inFamily h
    · exact familyOf?_eq_none_iff.mp rfl h
  other hfamily h := by
    rw [get?_emptyFamilies, KeyMap.get?_nil, Option.none_or, if_congr mem_families_iff rfl rfl]
    simp [hfamily]

namespace IsNested

/-- A member of a family. -/
theorem addMember (h : IsNested flat nested) {name : String} (hfamily : IsFamily family)
    (hlast : ∀ k ∈ keys flat, k < family ++ "." ++ name) (value : Json) :
    IsNested (flat ++ [(family ++ "." ++ name, value)])
      (Attribute.addMember nested family name value) := by
  obtain ⟨members, hmembers, hordered, hget⟩ := h.family hfamily
  have hadd : Attribute.addMember nested family name value =
      KeyMap.insert nested family (.object (KeyMap.insert members name value)) := by
    rw [Attribute.addMember, hmembers]
  -- the bare name of a family is not the key of a member
  have hbare {other : String} (hother : IsFamily other) : other ≠ family ++ "." ++ name := by
    rintro rfl
    exact hother.not_inFamily (hfamily.inFamily name)
  rw [hadd]
  constructor
  case ordered => exact h.ordered.insert _ _
  case family =>
    intro other hother
    by_cases heq : other = family
    · subst heq
      refine ⟨KeyMap.insert members name value, ?_, fun hnone => (hordered ?_).insert _ _,
        fun name' => ?_⟩
      · rw [KeyMap.get?_insert, if_pos rfl]
      · rwa [get?_concat hlast, if_neg (hbare hother)] at hnone
      · rw [get?_concat hlast, get?_concat hlast, if_neg (hbare hother), KeyMap.get?_insert, hget,
          if_congr (hfamily.point_append_inj hfamily) rfl rfl]
        by_cases hname : name' = name
        · simp [hname]
        · simp [hname]
    · obtain ⟨others, hothers, hordered', hget'⟩ := h.family hother
      refine ⟨others, ?_, fun hnone => hordered' ?_, fun name' => ?_⟩
      · rw [KeyMap.get?_insert, if_neg heq, hothers]
      · rwa [get?_concat hlast, if_neg (hbare hother)] at hnone
      · have hkey : other ++ "." ++ name' ≠ family ++ "." ++ name := fun hk =>
          heq ((hother.point_append_inj hfamily).mp hk).1
        rw [get?_concat hlast, get?_concat hlast, if_neg (hbare hother), if_neg hkey, hget']
  case inFamily =>
    intro k hk
    rw [KeyMap.get?_insert, if_neg, h.inFamily hk]
    rintro rfl
    exact hfamily.not_inFamily hk
  case other =>
    intro k hkfamily hk
    have hkey : k ≠ family ++ "." ++ name := by
      rintro rfl
      exact hk (hfamily.inFamily name)
    have hkne : k ≠ family := by
      rintro rfl
      exact hkfamily hfamily
    rw [KeyMap.get?_insert, if_neg hkne, get?_concat hlast, if_neg hkey, h.other hkfamily hk]

/-- An object of its own; that of a family comes before all members of the family. -/
theorem insert (h : IsNested flat nested) (hkey : ¬ InFamily key)
    (hlast : ∀ k ∈ keys flat, k < key) (members : KeyMap Json) :
    IsNested (flat ++ [(key, .object members)]) (KeyMap.insert nested key (.object members)) := by
  have hne {k : String} (hk : InFamily k) : k ≠ key := by
    rintro rfl
    exact hkey hk
  constructor
  case ordered => exact h.ordered.insert _ _
  case family =>
    intro family hfamily
    by_cases heq : family = key
    · subst heq
      refine ⟨members, ?_, fun hnone => ?_, fun name => ?_⟩
      · rw [KeyMap.get?_insert, if_pos rfl]
      · rw [get?_concat hlast, if_pos rfl] at hnone
        cases hnone
      · have hnone : get? flat (family ++ "." ++ name) = none := by
          rw [KeyMap.get?_eq_none_iff]
          intro hmem
          exact absurd (hlast _ hmem) (lt_point_append family name).asymm
        rw [get?_concat hlast, get?_concat hlast, if_pos rfl, if_neg (hne (hfamily.inFamily name)),
          hnone]
        rfl
    · obtain ⟨others, hothers, hordered, hget⟩ := h.family hfamily
      refine ⟨others, ?_, fun hnone => hordered ?_, fun name => ?_⟩
      · rw [KeyMap.get?_insert, if_neg heq, hothers]
      · rwa [get?_concat hlast, if_neg heq] at hnone
      · rw [get?_concat hlast, get?_concat hlast, if_neg heq,
          if_neg (hne (hfamily.inFamily name)), hget]
  case inFamily =>
    intro k hk
    rw [KeyMap.get?_insert, if_neg (hne hk), h.inFamily hk]
  case other =>
    intro k hkfamily hk
    rw [KeyMap.get?_insert, get?_concat hlast]
    by_cases heq : k = key
    · rw [if_pos heq, if_pos heq]
      rfl
    · rw [if_neg heq, if_neg heq, h.other hkfamily hk]

/-- What one entry keeps. -/
theorem nestEntry (h : IsNested flat nested) (hlast : ∀ k ∈ keys flat, k < key)
    (hentry : Attribute.nestEntry nested key value = .ok nested') :
    IsNested (flat ++ [(key, value)]) nested' := by
  obtain ⟨family, name, hfamily, rfl, rfl⟩ | ⟨hkey, ⟨members, rfl⟩, rfl⟩ := nestEntry_cases hentry
  · exact h.addMember hfamily hlast value
  · exact h.insert hkey hlast members

/-- What all entries keep. -/
theorem nestAll {rest : KeyMap Json} (h : IsNested flat nested) (hordered : Ordered (flat ++ rest))
    (hall : Attribute.nestAll nested rest = .ok nested') : IsNested (flat ++ rest) nested' := by
  induction rest generalizing flat nested with
  | nil =>
    cases hall
    rwa [List.append_nil]
  | cons e rest ih =>
    obtain ⟨key, value⟩ := e
    rw [nestAll_cons] at hall
    obtain ⟨nested'', hentry, hall⟩ := bind_eq_ok_iff.mp hall
    have hlast : ∀ k ∈ keys flat, k < key := by
      rw [Ordered, KeyMap.keys, List.map_append, List.pairwise_append] at hordered
      intro k hk
      exact hordered.2.2 k hk key (by simp)
    have hsplit : flat ++ (key, value) :: rest = flat ++ [(key, value)] ++ rest := by simp
    rw [hsplit] at hordered ⊢
    exact ih (h.nestEntry hlast hentry) hordered hall

end IsNested

/-- The entries come in the order of their keys, so an object under the bare name of a family is in
place before the first member is added to it. -/
theorem isNested_of_nest (hordered : Ordered flat) (h : nest flat = .ok nested) :
    IsNested flat nested := isNested_nil.nestAll hordered h

theorem IsNested.mem_keys_iff (h : IsNested flat nested) :
    key ∈ keys nested ↔ key ∈ families ∨ key ∈ keys flat ∧ ¬ InFamily key := by
  rw [← not_iff_not, ← KeyMap.get?_eq_none_iff, not_or, not_and_or, ← KeyMap.get?_eq_none_iff,
    mem_families_iff, not_not]
  by_cases hfamily : IsFamily key
  · obtain ⟨members, hmembers, -⟩ := h.family hfamily
    simp [hfamily, hmembers]
  by_cases hkey : InFamily key
  · have hassertion : key ≠ assertionName := by
      rintro rfl
      exact familyOf?_eq_none_iff.mp rfl hkey
    simp [hfamily, hkey, hassertion, h.inFamily hkey]
  · rw [h.other hfamily hkey]
    simp [hfamily, hkey, and_comm]

/-- A key of the flat map that is in no family and holds no object. -/
def IsStray (flat : KeyMap Json) (key : String) : Prop :=
  ¬ InFamily key ∧ ∃ value, get? flat key = some value ∧ ∀ members, value ≠ .object members

theorem not_isStray_of_nest (hordered : Ordered flat) (h : nest flat = .ok nested) (key : String) :
    ¬ IsStray flat key := by
  rintro ⟨hkey, value, hvalue, hobject⟩
  obtain hfamily | ⟨members, hmembers⟩ :=
    nestAll_eq_ok h (key, value) (hordered.get?_eq_some_iff.mp hvalue)
  · exact hkey hfamily
  · exact hobject members hmembers

/-- The walk through the map stops at the least of its stray keys. -/
theorem isStray_of_nest (hordered : Ordered flat) (h : nest flat = .error key) :
    IsStray flat key ∧ ∀ other, IsStray flat other → bytes key ≤ bytes other := by
  obtain ⟨before, value, after, rfl, hbefore, hkey, hvalue⟩ := nestAll_eq_error h
  refine ⟨⟨hkey, value, hordered.get?_eq_some_iff.mpr (by simp), hvalue⟩, ?_⟩
  rintro other ⟨hother, value', hvalue', hobject⟩
  rw [bytes_strictMono.le_iff_le, ← not_lt]
  intro hless
  have hmem := hordered.get?_eq_some_iff.mp hvalue'
  obtain hfamily | ⟨members, hmembers⟩ :=
    hbefore (other, value') (KeyMap.mem_before_of_lt hordered hmem hless)
  · exact hother hfamily
  · exact hobject members hmembers

/-- Nesting fails at the least of the keys that cannot be nested. -/
theorem nest_eq_error_iff (hordered : Ordered flat) : nest flat = .error key ↔
    IsStray flat key ∧ ∀ other, IsStray flat other → bytes key ≤ bytes other := by
  refine ⟨isStray_of_nest hordered, ?_⟩
  rintro ⟨hkey, hleast⟩
  cases hnest : nest flat with
  | ok nested => exact absurd hkey (not_isStray_of_nest hordered hnest key)
  | error other =>
    obtain ⟨hother, hleast'⟩ := isStray_of_nest hordered hnest
    have hequal := le_antisymm (hleast other hother) (hleast' key hkey)
    rw [bytes_strictMono.injective hequal]

theorem exists_nest_iff (hordered : Ordered flat) :
    (∃ nested, nest flat = .ok nested) ↔ ∀ key, ¬ IsStray flat key := by
  constructor
  · rintro ⟨nested, h⟩
    exact not_isStray_of_nest hordered h
  · intro hnone
    cases hnest : nest flat with
    | ok nested => exact ⟨nested, rfl⟩
    | error key => exact absurd (isStray_of_nest hordered hnest).1 (hnone key)

/-- The members of a family, under their keys in a flat map. -/
def dotted (nested : KeyMap Json) (family : String) : KeyMap Json :=
  (((get? nested family).bind Json.object?).getD []).map fun e => (family ++ "." ++ e.1, e.2)

/-- Members are put back under the keys of their families; all else stays. -/
def flatten (nested : KeyMap Json) : KeyMap Json :=
  KeyMap.insertAll
    (KeyMap.insertAll (KeyMap.filterKeys (fun key => !decide (IsFamily key)) nested)
      (dotted nested customFamily))
    (dotted nested reservedFamily)

theorem dotted_eq {members : KeyMap Json} (h : get? nested family = some (.object members)) :
    dotted nested family = members.map fun e => (family ++ "." ++ e.1, e.2) := by
  rw [dotted, h]
  rfl

theorem get?_dotted_self {members : KeyMap Json} (hfamily : IsFamily family)
    (h : get? nested family = some (.object members)) (name : String) :
    get? (dotted nested family) (family ++ "." ++ name) = get? members name := by
  rw [dotted_eq h]
  clear h
  induction members with
  | nil => rfl
  | cons e members ih =>
    rw [List.map_cons, KeyMap.get?_cons, ih, KeyMap.get?_cons,
      if_congr (hfamily.point_append_inj hfamily) rfl rfl]
    simp

theorem get?_dotted_of_ne (h : ∀ name, key ≠ family ++ "." ++ name) :
    get? (dotted nested family) key = none := by
  rw [KeyMap.get?_eq_none_iff, KeyMap.keys, dotted, List.map_map]
  intro hmem
  obtain ⟨e, -, he⟩ := List.mem_map.mp hmem
  exact h e.1 he.symm

theorem nodup_keys_dotted {members : KeyMap Json} (hfamily : IsFamily family)
    (h : get? nested family = some (.object members)) (hordered : Ordered members) :
    (keys (dotted nested family)).Nodup := by
  have hkeys : keys (dotted nested family) = (keys members).map (family ++ "." ++ ·) := by
    rw [dotted_eq h, KeyMap.keys, KeyMap.keys, List.map_map, List.map_map]
    rfl
  rw [hkeys]
  exact hordered.nodup.map fun name name' heq => ((hfamily.point_append_inj hfamily).mp heq).2

/-- The assertion is there, and no family has its bare name for a key. -/
structure IsPlain (flat : KeyMap Json) : Prop where
  assertion : assertionName ∈ keys flat
  bare {family : String} (h : IsFamily family) : get? flat family = none

/-- Nothing of a map is lost when it is nested. -/
theorem IsNested.flatten_eq (h : IsNested flat nested) (hordered : Ordered flat)
    (hplain : IsPlain flat) : flatten nested = flat := by
  have hnodup {family : String} (hfamily : IsFamily family) :
      (keys (dotted nested family)).Nodup := by
    obtain ⟨members, hmembers, hordered, -⟩ := h.family hfamily
    exact nodup_keys_dotted hfamily hmembers (hordered (hplain.bare hfamily))
  have hself {family : String} (hfamily : IsFamily family) (name : String) :
      get? (dotted nested family) (family ++ "." ++ name) =
        get? flat (family ++ "." ++ name) := by
    obtain ⟨members, hmembers, -, hget⟩ := h.family hfamily
    rw [get?_dotted_self hfamily hmembers, hget, hplain.bare hfamily, Option.bind_none,
      Option.or_none]
  have hother {family other : String} (hfamily : IsFamily family) (hother : IsFamily other)
      (hne : family ≠ other) (name : String) :
      get? (dotted nested other) (family ++ "." ++ name) = none :=
    get?_dotted_of_ne fun name' heq => hne ((hfamily.point_append_inj hother).mp heq).1
  have hflatten : Ordered (flatten nested) := ((h.ordered.filterKeys _).insertAll _).insertAll _
  refine hflatten.ext hordered fun key => ?_
  rw [flatten, KeyMap.get?_insertAll _ (hnodup (.inl rfl)),
    KeyMap.get?_insertAll _ (hnodup (.inr rfl)), KeyMap.get?_filterKeys]
  by_cases hkey : InFamily key
  · rw [h.inFamily hkey, ite_self, Option.or_none]
    obtain ⟨family, name, rfl | rfl, rfl⟩ := inFamily_iff.mp hkey
    · rw [hself (.inl rfl), hother (.inl rfl) (.inr rfl) (by decide), Option.or_none]
    · rw [hself (.inr rfl), hother (.inr rfl) (.inl rfl) (by decide), Option.none_or]
  · have hnone {family : String} (hfamily : IsFamily family) :
        get? (dotted nested family) key = none :=
      get?_dotted_of_ne fun name heq => hkey (inFamily_iff.mpr ⟨family, name, hfamily, heq⟩)
    rw [hnone (.inl rfl), hnone (.inr rfl), Option.none_or, Option.none_or]
    by_cases hfamily : IsFamily key
    · simp [hfamily, hplain.bare hfamily]
    · rw [h.other hfamily hkey]
      by_cases hassertion : key = assertionName
      · subst hassertion
        obtain ⟨value, hvalue⟩ := Option.ne_none_iff_exists'.mp fun hnone =>
          KeyMap.get?_eq_none_iff.mp hnone hplain.assertion
        simp [hfamily, hvalue]
      · simp [hfamily, hassertion]

/-- A derived value stands at its key and a variable at every other. The nested form exists when
every key outside of the families holds an object, and otherwise the least key that does not is
reported. It holds every value once, so that a map without bare names of families can be found
again. -/
theorem nest_overlay_spec {raw flat : KeyMap Json} {d : Derived} (hraw : Ordered raw)
    (hd : Ordered d) (hflat : flat = overlay raw d) :
    (∀ key, get? flat key = ((get? d key).map Value.toJson).or (get? raw key)) ∧
    ((∃ nested, nest flat = .ok nested) ↔ ∀ key, ¬ IsStray flat key) ∧
    (∀ e, (nest flat).mapError Mapping.Error.environment = .error e ↔
      ∃ key, e = .environment key ∧ IsStray flat key ∧
        ∀ other, IsStray flat other → bytes key ≤ bytes other) ∧
    (∀ nested, nest flat = .ok nested → IsNested flat nested ∧
      ∀ key, key ∈ keys nested ↔ key ∈ families ∨ key ∈ keys flat ∧ ¬ InFamily key) ∧
    (IsPlain flat → ∀ nested, nest flat = .ok nested → flatten nested = flat ∧
      ∀ other, Ordered other → IsPlain other → nest other = .ok nested → other = flat) := by
  have hordered : Ordered flat := by
    rw [hflat]
    exact ordered_overlay hraw d
  refine ⟨fun key => ?_, exists_nest_iff hordered, fun e => ?_, fun nested h => ?_,
    fun hplain nested h => ?_⟩
  · rw [hflat]
    exact get?_overlay raw hd key
  · rw [mapError_eq_error_iff]
    constructor
    · rintro ⟨key, h, rfl⟩
      exact ⟨key, rfl, isStray_of_nest hordered h⟩
    · rintro ⟨key, rfl, h⟩
      exact ⟨key, (nest_eq_error_iff hordered).mpr h, rfl⟩
  · have hnested := isNested_of_nest hordered h
    exact ⟨hnested, fun key => hnested.mem_keys_iff⟩
  · have hflatten := (isNested_of_nest hordered h).flatten_eq hordered hplain
    refine ⟨hflatten, fun other hother hplain' h' => ?_⟩
    rw [← hflatten, (isNested_of_nest hother h').flatten_eq hother hplain']

/-- Keys with an empty name, with several points and with a point behind a longer name, and a value
under one key on both sides. -/
theorem nest_overlay_points :
    ∃ raw flat nested : KeyMap Json, ∃ d : Derived,
      Ordered raw ∧ Ordered d ∧ flat = overlay raw d ∧ IsPlain flat ∧ nest flat = .ok nested ∧
      get? flat "google.a.b" = some (.string "derived") ∧ IsNested flat nested ∧
      flatten nested = flat := by
  let raw : KeyMap Json := [("assertion", .object [("sub", .string "s")]),
    ("attributes.x", .object []), ("google.", .string "e"), ("google.a.b", .string "raw")]
  let d : Derived := [("google.a.b", .text "derived")]
  let nested : KeyMap Json := [("assertion", .object [("sub", .string "s")]),
    ("attribute", .object []), ("attributes.x", .object []),
    ("google", .object [("", .string "e"), ("a.b", .string "derived")])]
  have hraw : Ordered raw := by
    unfold Ordered
    decide
  have hd : Ordered d := by
    unfold Ordered
    decide
  have hplain : IsPlain (overlay raw d) := ⟨by decide, fun h => by obtain rfl | rfl := h <;> rfl⟩
  have hnest : nest (overlay raw d) = .ok nested := by rfl
  obtain ⟨hget, -, -, hnested, hflatten⟩ := nest_overlay_spec hraw hd rfl
  exact ⟨raw, overlay raw d, nested, d, hraw, hd, rfl, hplain, hnest, hget "google.a.b",
    (hnested nested hnest).1, (hflatten hplain nested hnest).1⟩

end ClaimMapping.Attribute
