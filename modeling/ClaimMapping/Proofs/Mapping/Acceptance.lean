import ClaimMapping.Proofs.Mapping.Requirement

namespace ClaimMapping.Mapping

open Attribute
open Expression (Bindings)
open Journal (bind_eq_ok_iff seq_eq_ok_iff mapError_eq_ok_iff)

/-- A reserved name, or a custom key with a valid name. -/
def IsValidKey (key : String) : Prop :=
  key = subjectKey ∨ key = groupsKey ∨ ∃ name, key = customKey name ∧ IsName name

theorem isTargetKey_of_isValidKey {key : String} (h : IsValidKey key) : IsTargetKey key := by
  obtain h | h | ⟨name, h, -⟩ := h
  · exact .inl h
  · exact .inr (.inl h)
  · exact .inr (.inr ⟨name, h⟩)

theorem not_isReserved_customKey (name : String) :
    customKey name ≠ subjectKey ∧ customKey name ≠ groupsKey := by
  have h := Key.read?_customKey name
  constructor
  · intro he
    rw [Key.read?_eq_some_iff.mpr (show customKey name = Key.subject.text from he)] at h
    cases h
  · intro he
    rw [Key.read?_eq_some_iff.mpr (show customKey name = Key.groups.text from he)] at h
    cases h

theorem isValidKey_iff {key : String} :
    IsValidKey key ↔ IsTargetKey key ∧ ∀ name, key = customKey name → IsName name := by
  constructor
  · intro h
    refine ⟨isTargetKey_of_isValidKey h, fun name hk => ?_⟩
    obtain rfl | rfl | ⟨name', rfl, hn⟩ := h
    · exact absurd hk.symm (not_isReserved_customKey name).1
    · exact absurd hk.symm (not_isReserved_customKey name).2
    · rwa [← customKey_inj.mp hk]
  · intro h
    obtain ⟨rfl | rfl | ⟨name, rfl⟩, hn⟩ := h
    · exact .inl rfl
    · exact .inr (.inl rfl)
    · exact .inr (.inr ⟨name, rfl, hn name rfl⟩)

/-- What a run asks of a request with a mapping, a provider and its bindings, and the attributes
that it then derives. -/
structure Accepts (s : Setting) (r : Request) (m : KeyMap String) (p : Provider) (b : Bindings)
    (d : Derived) : Prop where
  payload : r.payload ≠ ""
  mapping : r.mapping = some m
  some_entry : m ≠ []
  keys : ∀ key ∈ KeyMap.keys m, IsValidKey key
  resolved : Resolves s r p b
  lengths : (∀ e ∈ m, e.2.utf8ByteSize ≤ 2048) ∧ r.condition.utf8ByteSize ≤ 4096
  times : (∀ e ∈ m, ¬ MakesTimeOfNumber e.2) ∧ ¬ MakesTimeOfNumber r.condition
  derived : DerivesAll ⟨p.declarations, s.library⟩ b m d
  subject : ∃ subject, KeyMap.get? d subjectKey = some (.text subject) ∧
    subject.utf8ByteSize ≤ 127
  size : totalBytes d ≤ 8192
  count : customKeys d ≤ 50
  admitted : Admits s.library r.condition b d

/-- A run that derives attributes went through all its stages. -/
theorem exists_accepts_of_run {s : Setting} {r : Request} {d : Derived}
    (h : (s.run r).outcome = .ok d) : ∃ m p b, Accepts s r m p b d := by
  rw [run_outcome] at h
  obtain ⟨m, hm, h⟩ := bind_eq_ok_iff.mp h
  obtain ⟨⟨p, b⟩, hp, h⟩ := bind_eq_ok_iff.mp h
  obtain ⟨hs, h⟩ := seq_eq_ok_iff.mp h
  obtain ⟨d', hd, h⟩ := bind_eq_ok_iff.mp h
  obtain ⟨hc, h⟩ := seq_eq_ok_iff.mp h
  obtain ⟨ha, h⟩ := seq_eq_ok_iff.mp h
  cases h
  obtain ⟨payload, mapping, some_entry, keys⟩ :=
    Request.check_eq_ok_iff.mp (mapError_eq_ok_iff.mp hm)
  obtain ⟨lengths, condition, names, times⟩ :=
    checkSources_eq_ok_iff.mp (mapError_eq_ok_iff.mp hs)
  obtain ⟨subject, size, count⟩ := checkDerived_eq_ok_iff.mp (mapError_eq_ok_iff.mp hc)
  refine ⟨m, p, b, payload, mapping, some_entry, fun key hk => ?_,
    Setting.resolve_eq_ok_iff.mp (mapError_eq_ok_iff.mp hp), ⟨lengths, condition⟩, times,
    evaluateMapping_eq_ok_iff.mp hd, subject, size, count, acceptCondition_eq_ok_iff.mp ha⟩
  exact isValidKey_iff.mpr ⟨keys key hk, fun name he => names name (he ▸ hk)⟩

/-- When every stage gives what it should, the run derives the attributes. -/
theorem Accepts.run {s : Setting} {r : Request} {m : KeyMap String} {p : Provider} {b : Bindings}
    {d : Derived} (h : Accepts s r m p b d) : (s.run r).outcome = .ok d := by
  have hm := Request.check_eq_ok_iff.mpr
    ⟨h.payload, h.mapping, h.some_entry, fun key hk => isTargetKey_of_isValidKey (h.keys key hk)⟩
  have hs := checkSources_eq_ok_iff.mpr ⟨h.lengths.1, h.lengths.2,
    fun name hk => (isValidKey_iff.mp (h.keys _ hk)).2 name rfl, h.times⟩
  have hc := checkDerived_eq_ok_iff.mpr ⟨h.subject, h.size, h.count⟩
  rw [run_outcome]
  refine bind_eq_ok_iff.mpr ⟨m, mapError_eq_ok_iff.mpr hm, bind_eq_ok_iff.mpr
    ⟨(p, b), mapError_eq_ok_iff.mpr (Setting.resolve_eq_ok_iff.mpr h.resolved), ?_⟩⟩
  refine seq_eq_ok_iff.mpr ⟨mapError_eq_ok_iff.mpr hs, ?_⟩
  refine bind_eq_ok_iff.mpr ⟨d, evaluateMapping_eq_ok_iff.mpr h.derived, ?_⟩
  refine seq_eq_ok_iff.mpr ⟨mapError_eq_ok_iff.mpr hc, ?_⟩
  exact seq_eq_ok_iff.mpr ⟨acceptCondition_eq_ok_iff.mpr h.admitted, rfl⟩

/-- A run derives attributes exactly when every requirement holds, and then those that the sources
of its mapping give. -/
theorem run_eq_ok_iff (s : Setting) (r : Request) (d : Derived) :
    (s.run r).outcome = .ok d ↔ ∃ m p b, Accepts s r m p b d := by
  constructor
  · intro h
    exact exists_accepts_of_run h
  · intro h
    obtain ⟨m, p, b, h⟩ := h
    exact h.run

end ClaimMapping.Mapping
