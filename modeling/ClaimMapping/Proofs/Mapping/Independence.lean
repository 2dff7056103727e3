import ClaimMapping.Proofs.Mapping.Acceptance
import ClaimMapping.Proofs.Mapping.Failure

namespace ClaimMapping.Mapping

open Attribute
open Expression (Bindings Environment)

/-- A run knows the request by its payload and its provider when it looks for the bindings. -/
theorem Resolves.congr {s : Setting} {r r' : Request} {p : Provider} {b : Bindings}
    (h : Resolves s r p b) (hpayload : r'.payload = r.payload)
    (hprovider : r'.provider = r.provider) : Resolves s r' p b := by
  cases h with
  | named name before after given split others match_name accepts =>
    exact .named name before after (hprovider.trans given) split others match_name
      (hpayload ▸ accepts)
  | first before after given split others accepts =>
    exact .first before after (hprovider.trans given) split (hpayload ▸ others)
      (hpayload ▸ accepts)

section

variable {env : Environment} {b : Bindings}

/-- What an entry gives hangs on its own source and on the bindings alone. -/
theorem Derives.unique {key source : String} {a a' : Value} (h : Derives env b key source a)
    (h' : Derives env b key source a') : a = a' :=
  Except.ok.inj ((evaluateEntry_eq_ok_iff.mpr h).symm.trans (evaluateEntry_eq_ok_iff.mpr h'))

/-- Every entry of the mapping has its attribute. -/
theorem DerivesAll.get? {m : KeyMap String} {d : Derived} (h : DerivesAll env b m d)
    {key source : String} (hkey : KeyMap.get? m key = some source) :
    ∃ a, KeyMap.get? d key = some a ∧ Derives env b key source a := by
  induction h with
  | nil => cases hkey
  | @cons e a m d hentry _ ih =>
    obtain ⟨k, v⟩ := e
    obtain ⟨k', v'⟩ := a
    obtain ⟨rfl, hderives⟩ := hentry
    by_cases hk : key = k'
    · subst hk
      rw [KeyMap.get?_cons_self, Option.some.injEq] at hkey
      subst hkey
      exact ⟨v', KeyMap.get?_cons_self _ _ _, hderives⟩
    · rw [KeyMap.get?_cons_of_ne hk] at hkey ⊢
      exact ih hkey

/-- A part of a mapping derives that part of the attributes. -/
theorem DerivesAll.filterKeys {m : KeyMap String} {d : Derived} (h : DerivesAll env b m d)
    (p : String → Bool) :
    DerivesAll env b (KeyMap.filterKeys p m) (KeyMap.filterKeys p d) := by
  induction h with
  | nil => exact .nil
  | @cons e a m d hentry _ ih =>
    by_cases hp : p e.1
    · have hp' : p a.1 := hentry.1 ▸ hp
      rw [KeyMap.filterKeys, KeyMap.filterKeys, List.filter_cons_of_pos (by exact hp),
        List.filter_cons_of_pos (by exact hp')]
      exact .cons hentry ih
    · have hp' : ¬ p a.1 := hentry.1 ▸ hp
      rw [KeyMap.filterKeys, KeyMap.filterKeys, List.filter_cons_of_neg (by exact hp),
        List.filter_cons_of_neg (by exact hp')]
      exact ih

end

theorem totalBytes_le_of_sublist {d d' : Derived} (h : d'.Sublist d) :
    totalBytes d' ≤ totalBytes d :=
  (h.map _).sum_le_sum fun _ _ => Nat.zero_le _

theorem customKeys_le_of_sublist {d d' : Derived} (h : d'.Sublist d) :
    customKeys d' ≤ customKeys d := (h.map Prod.fst).countP_le

/-- What a run accepts without a condition it accepts in part. -/
theorem Accepts.filterKeys {s : Setting} {r : Request} {m : KeyMap String} {p : Provider}
    {b : Bindings} {d : Derived} (h : Accepts s r m p b d) (hcondition : r.condition = "")
    {q : String → Bool} (hsubject : q subjectKey) :
    Accepts s { r with mapping := some (KeyMap.filterKeys q m) } (KeyMap.filterKeys q m) p b
      (KeyMap.filterKeys q d) := by
  have hsublist := KeyMap.filterKeys_sublist q m
  have hkept {e : String × String} (he : e ∈ KeyMap.filterKeys q m) : e ∈ m := hsublist.subset he
  obtain ⟨subject, hget, hbytes⟩ := h.subject
  have hget' : KeyMap.get? (KeyMap.filterKeys q d) subjectKey = some (.text subject) := by
    rw [KeyMap.get?_filterKeys, if_pos hsubject, hget]
  have hderived := h.derived.filterKeys q
  exact {
    payload := h.payload
    mapping := rfl
    some_entry := by
      intro hnil
      rw [hnil, DerivesAll, List.forall₂_nil_left_iff] at hderived
      rw [hderived] at hget'
      cases hget'
    keys := fun key hk => h.keys key ((hsublist.map Prod.fst).subset hk)
    resolved := h.resolved.congr rfl rfl
    lengths := ⟨fun e he => h.lengths.1 e (hkept he), h.lengths.2⟩
    times := ⟨fun e he => h.times.1 e (hkept he), h.times.2⟩
    derived := hderived
    subject := ⟨subject, hget', hbytes⟩
    size := (totalBytes_le_of_sublist (KeyMap.filterKeys_sublist q d)).trans h.size
    count := (customKeys_le_of_sublist (KeyMap.filterKeys_sublist q d)).trans h.count
    admitted := .inl hcondition }

/-- A run without a condition derives from each part of its mapping that has the subject the same
attributes for the keys of the part; and any two runs over one payload agree at every key for which
their mappings have the same source. -/
theorem run_isPartOf (s : Setting) (r : Request) {m : KeyMap String} {d : Derived}
    (hm : r.mapping = some m) (hordered : KeyMap.Ordered m) (hrun : (s.run r).outcome = .ok d) :
    (r.condition = "" → ∀ part : KeyMap String, KeyMap.Ordered part → KeyMap.IsPartOf part m →
      subjectKey ∈ KeyMap.keys part →
        (s.run { r with mapping := some part }).outcome =
          .ok (KeyMap.filterKeys (KeyMap.contains part) d)) ∧
    ∀ (r' : Request) (m' : KeyMap String) (d' : Derived), r'.payload = r.payload →
      r'.provider = r.provider → r'.mapping = some m' → (s.run r').outcome = .ok d' →
        ∀ key source, KeyMap.get? m key = some source → KeyMap.get? m' key = some source →
          ∃ a, KeyMap.get? d key = some a ∧ KeyMap.get? d' key = some a := by
  obtain ⟨_, p, b, h⟩ := exists_accepts_of_run hrun
  cases hm.symm.trans h.mapping
  constructor
  · intro hcondition part hpart hwithin hsubject
    have hcontains : KeyMap.contains part subjectKey = true := by
      rw [KeyMap.contains, Option.isSome_iff_ne_none, ne_eq, KeyMap.get?_eq_none_iff, not_not]
      exact hsubject
    have haccepts := h.filterKeys hcondition hcontains
    rw [← hwithin.eq_filterKeys hpart hordered] at haccepts
    exact haccepts.run
  · intro r' m' d' hpayload hprovider hm' hrun' key source hkey hkey'
    obtain ⟨_, p', b', h'⟩ := exists_accepts_of_run hrun'
    cases hm'.symm.trans h'.mapping
    obtain ⟨rfl, rfl⟩ := (h.resolved.congr hpayload hprovider).unique h'.resolved
    obtain ⟨a, ha, hderives⟩ := h.derived.get? hkey
    obtain ⟨a', ha', hderives'⟩ := h'.derived.get? hkey'
    rw [← hderives.unique hderives'] at ha'
    exact ⟨a, ha, ha'⟩

def threeEntries : KeyMap String :=
  [("attribute.a", "assertion.sub"), ("google.groups", "assertion.groups"),
    ("google.subject", "assertion.sub + '-1'")]

def threeAttributes : Derived :=
  [("attribute.a", .text "s"), ("google.groups", .list ["g"]), ("google.subject", .text "s-1")]

def whole : Request :=
  ⟨"\x7b\"groups\":[\"g\"],\"sub\":\"s\"\x7d", some threeEntries, "", none⟩

/-- The first of these entries is among the three, the other has another source. -/
def twoEntries : KeyMap String := [("attribute.a", "assertion.sub"), ("google.subject", "'x'")]

def twoAttributes : Derived := [("attribute.a", .text "s"), ("google.subject", .text "x")]

/-- Without the first entry, and with another entry beside it. -/
theorem run_threeEntries :
    (Setting.standard.run { whole with mapping := some (threeEntries.drop 1) }).outcome =
      .ok (KeyMap.filterKeys (KeyMap.contains (threeEntries.drop 1)) threeAttributes) ∧
    (Setting.standard.run { whole with mapping := some twoEntries }).outcome =
      .ok twoAttributes ∧
    ∃ a, KeyMap.get? threeAttributes "attribute.a" = some a ∧
      KeyMap.get? twoAttributes "attribute.a" = some a := by
  have hrun : (Setting.standard.run whole).outcome = .ok threeAttributes :=
    Journal.eq_ok_of_toOption (by decide +kernel)
  have hother : (Setting.standard.run { whole with mapping := some twoEntries }).outcome =
      .ok twoAttributes := Journal.eq_ok_of_toOption (by decide +kernel)
  have hordered : KeyMap.Ordered threeEntries := by
    unfold KeyMap.Ordered
    decide
  have hpart : KeyMap.Ordered (threeEntries.drop 1) := by
    unfold KeyMap.Ordered
    decide
  have hwithin : KeyMap.IsPartOf (threeEntries.drop 1) threeEntries := by
    intro key source h
    exact hordered.get?_eq_some_iff.mpr (List.mem_of_mem_drop (KeyMap.mem_of_get? h))
  have hkey : KeyMap.get? threeEntries "attribute.a" = some "assertion.sub" := by decide
  have hkey' : KeyMap.get? twoEntries "attribute.a" = some "assertion.sub" := by decide
  obtain ⟨restrict, agree⟩ := run_isPartOf .standard whole rfl hordered hrun
  exact ⟨restrict rfl _ hpart hwithin (by decide), hother,
    agree { whole with mapping := some twoEntries } twoEntries twoAttributes rfl rfl rfl hother _ _
      hkey hkey'⟩

end ClaimMapping.Mapping
