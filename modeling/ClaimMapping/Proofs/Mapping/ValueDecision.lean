import ClaimMapping.Proofs.Mapping.Decision

namespace ClaimMapping.Mapping

open Attribute
open Expression (Bindings Environment)
open Journal (bind_eq_error_iff mapError_eq_ok_iff)

variable {s : Setting} {r : Request}

/-- A mapping fails at the first entry that fails, behind entries that have given their
attributes. -/
theorem evaluateMapping_eq_error {env : Environment} {b : Bindings} {m : KeyMap String} {e : Stop}
    (h : (evaluateMapping env b m).outcome = .error e) :
    ∃ before key source after d, m = before ++ (key, source) :: after ∧
      DerivesAll env b before d ∧ (evaluateEntry env b key source).outcome = .error e := by
  induction m with
  | nil => cases h
  | cons entry m ih =>
    obtain ⟨key, source⟩ := entry
    simp only [evaluateMapping, Journal.Traced.bind_outcome] at h
    obtain he | ⟨a, ha, h⟩ := bind_eq_error_iff.mp h
    · exact ⟨[], key, source, m, [], rfl, .nil, he⟩
    obtain h | ⟨d, -, h⟩ := bind_eq_error_iff.mp h
    · obtain ⟨before, key', source', after, d, rfl, hd, he⟩ := ih h
      exact ⟨(key, source) :: before, key', source', after, (key, a) :: d, rfl,
        .cons ⟨rfl, evaluateEntry_eq_ok_iff.mp ha⟩ hd, he⟩
    · cases h

theorem evaluateEntry_outcome_eq (env : Environment) (b : Bindings) (key source : String) :
    (evaluateEntry env b key source).outcome =
      match Expression.read source with
      | .error .crash => .error .crash
      | .error (.mistake e) => .error (.error (.compile (.attribute key) e))
      | .ok x =>
        match env.evaluate x b with
        | .error .crash => .error .crash
        | .error (.error e) => .error (.error (.evaluate (.attribute key) e))
        | .ok v => (attributeOf key v).mapError .error := by
  rw [evaluateEntry_outcome, evaluateSource]
  cases Expression.read source with
  | error e => cases e <;> rfl
  | ok x =>
    dsimp only
    change ((env.evaluate x b).mapError (Stop.ofExpression (.attribute key)) >>= fun v =>
      (attributeOf key v).mapError .error) = _
    cases env.evaluate x b with
    | error e => cases e <;> rfl
    | ok v => rfl

section

variable {m : KeyMap String} {p : Provider} {b : Bindings} {key source : String}

/-- What the checks on an entry look at, one after the other. -/
theorem Fails.cases_of_entry (hm : r.mapping = some m) (ho : KeyMap.Ordered m)
    (hp : Resolves s r p b) (he : (key, source) ∈ m) {c : Check} {e : Error} (h : Fails s r c e)
    (hc : c.stage = 9) (hk : c.text = key) :
    (c.step = 0 ∧ ∃ e', Expression.read source = .error (.mistake e')) ∨
      ∃ x, Expression.read source = .ok x ∧
        ((c.step = 1 ∧ ∃ e', Environment.evaluate ⟨p.declarations, s.library⟩ x b =
            .error (.error e')) ∨
          c.step = 2 ∧ ∃ v, Environment.evaluate ⟨p.declarations, s.library⟩ x b = .ok v ∧
            attributeOf key v = .error e) := by
  have hev {outcome : Except Expression.Stop Expression.Value} (h : Evaluates s r key outcome) :
      ∃ x, Expression.read source = .ok x ∧
        Environment.evaluate ⟨p.declarations, s.library⟩ x b = outcome := by
    obtain ⟨hm', he', hp', hx, hv⟩ := h
    cases hm.symm.trans hm'
    obtain rfl := ho.eq_of_mem he he'
    obtain ⟨rfl, rfl⟩ := hp.unique hp'
    exact ⟨_, hx, hv⟩
  cases c with
  | compile k =>
    obtain rfl : k = key := hk
    cases h with
    | compile hm' he' hx =>
      cases hm.symm.trans hm'
      obtain rfl := ho.eq_of_mem he he'
      exact .inl ⟨rfl, _, hx⟩
  | evaluate k =>
    obtain rfl : k = key := hk
    cases h with
    | evaluate h =>
      obtain ⟨x, hx, hv⟩ := hev h
      exact .inr ⟨x, hx, .inl ⟨rfl, _, hv⟩⟩
  | type k =>
    obtain rfl : k = key := hk
    obtain ⟨v, h, ha⟩ := attributeOf_eq_error_iff.mpr h
    obtain ⟨x, hx, hv⟩ := hev h
    exact .inr ⟨x, hx, .inr ⟨rfl, v, hv, ha⟩⟩
  | _ => simp [Check.stage] at hc

theorem Derives.not_fails (hm : r.mapping = some m) (ho : KeyMap.Ordered m)
    (hp : Resolves s r p b) (he : (key, source) ∈ m) {a : Value}
    (h : Derives ⟨p.declarations, s.library⟩ b key source a) {c : Check} {e : Error}
    (hf : Fails s r c e) (hc : c.stage = 9) : c.text ≠ key := by
  intro hk
  have h := evaluateEntry_eq_ok_iff.mpr h
  rw [evaluateEntry_outcome_eq] at h
  obtain ⟨-, e', hx⟩ | ⟨x, hx, ⟨-, e', hv⟩ | ⟨-, v, hv, ha⟩⟩ :=
    hf.cases_of_entry hm ho hp he hc hk
  · simp only [hx] at h
    cases h
  · simp only [hx, hv] at h
    cases h
  · simp only [hx, hv, ha] at h
    cases h

/-- The first check that fails on an entry. -/
theorem evaluateEntry_eq_error (hm : r.mapping = some m) (ho : KeyMap.Ordered m)
    (hp : Resolves s r p b) (he : (key, source) ∈ m) {e : Error}
    (h : (evaluateEntry ⟨p.declarations, s.library⟩ b key source).outcome = .error (.error e)) :
    ∃ c, Fails s r c e ∧ c.stage = 9 ∧ c.text = key ∧
      ∀ c' e', Fails s r c' e' → c'.stage = 9 → c'.text = key → c.step ≤ c'.step := by
  rw [evaluateEntry_outcome_eq] at h
  cases hx : Expression.read source with
  | error failure =>
    simp only [hx] at h
    cases failure with
    | crash => cases h
    | mistake e' =>
      cases h
      exact ⟨.compile key, .compile hm he hx, rfl, rfl, fun _ _ _ _ _ => Nat.zero_le _⟩
  | ok x =>
    simp only [hx] at h
    cases hv : Environment.evaluate ⟨p.declarations, s.library⟩ x b with
    | error stop =>
      simp only [hv] at h
      cases stop with
      | crash => cases h
      | error e' =>
        cases h
        refine ⟨.evaluate key, .evaluate ⟨hm, he, hp, hx, hv⟩, rfl, rfl,
          fun c' e' hf hc hk => ?_⟩
        -- the source has been read, so of this entry nothing earlier can fail
        obtain ⟨-, e', hx'⟩ | ⟨x', -, ⟨hs, -⟩ | ⟨hs, -⟩⟩ := hf.cases_of_entry hm ho hp he hc hk
        · cases hx.symm.trans hx'
        · exact hs.ge
        · exact hs ▸ Nat.le_succ 1
    | ok v =>
      simp only [hv] at h
      have hf := attributeOf_eq_error_iff.mp
        ⟨v, ⟨hm, he, hp, hx, hv⟩, mapError_error_iff.mp h⟩
      refine ⟨.type key, hf, rfl, rfl, fun c' e' hf hc hk => ?_⟩
      obtain ⟨-, e', hx'⟩ | ⟨x', hx', ⟨-, e', hv'⟩ | ⟨hs, -⟩⟩ :=
        hf.cases_of_entry hm ho hp he hc hk
      · cases hx.symm.trans hx'
      · cases hx.symm.trans hx'
        cases hv.symm.trans hv'
      · exact hs.ge

/-- The checks of this stage are about entries of the mapping. -/
theorem Fails.exists_entry (hm : r.mapping = some m) {c : Check} {e : Error} (h : Fails s r c e)
    (hc : c.stage = 9) : ∃ source, (c.text, source) ∈ m := by
  have hev {key : String} {outcome : Except Expression.Stop Expression.Value}
      (h : Evaluates s r key outcome) : ∃ source, (key, source) ∈ m := by
    obtain ⟨hm', he, -⟩ := h
    cases hm.symm.trans hm'
    exact ⟨_, he⟩
  cases c with
  | compile k =>
    cases h with
    | compile hm' he _ =>
      cases hm.symm.trans hm'
      exact ⟨_, he⟩
  | evaluate k =>
    cases h with
    | evaluate h => exact hev h
  | type k =>
    obtain ⟨v, h, -⟩ := attributeOf_eq_error_iff.mpr h
    exact hev h
  | _ => simp [Check.stage] at hc

theorem DerivesAll.exists_derives {env : Environment} {d : Derived} (h : DerivesAll env b m d)
    (he : (key, source) ∈ m) : ∃ a, Derives env b key source a := by
  induction h with
  | nil => cases he
  | cons h _ ih =>
    rcases List.mem_cons.mp he with rfl | he
    · exact ⟨_, h.2⟩
    · exact ih he

/-- The entries are decided in the order of their keys, and each of them in the order of its
steps. -/
theorem decides_entries (hm : r.mapping = some m) (ho : KeyMap.Ordered m)
    (hp : Resolves s r p b) :
    Decides s r 9 10 (evaluateMapping ⟨p.declarations, s.library⟩ b m).outcome := by
  refine .stage (fun d h c e hf hc => ?_) fun e h => ?_
  · obtain ⟨source, he⟩ := hf.exists_entry hm hc
    obtain ⟨a, ha⟩ := (evaluateMapping_eq_ok_iff.mp h).exists_derives he
    exact ha.not_fails hm ho hp he hf hc rfl
  · obtain ⟨before, key, source, after, d, rfl, hd, h⟩ := evaluateMapping_eq_error h
    obtain ⟨c, hf, hc, rfl, hmin⟩ := evaluateEntry_eq_error hm ho hp (by simp) h
    refine ⟨c, hf, hc, fun c' e' hf' hc' => not_lt.mp fun hlt => ?_⟩
    obtain hs | ⟨-, ht | ⟨ht, hstep⟩⟩ := Check.lt_iff.mp hlt
    · omega
    · -- an entry with a lesser key stands before, and has given its attribute
      obtain ⟨source', he'⟩ := hf'.exists_entry hm hc'
      obtain ⟨a, ha⟩ := hd.exists_derives (KeyMap.mem_before_of_lt ho he' ht)
      exact ha.not_fails hm ho hp he' hf' hc' rfl
    · exact absurd hstep (not_lt.mpr (hmin c' e' hf' hc' ht))

end

theorem checkSubject_eq (d : Derived) :
    checkSubject d = ((match (KeyMap.get? d subjectKey).bind Value.text? with
      | none => .error .missingSubject
      | some text => .ok text) >>= fun text =>
        if 127 < text.utf8ByteSize then .error (.subjectTooLong text.utf8ByteSize 127)
        else .ok ()) := by
  simp only [checkSubject, byteSize_eq_utf8ByteSize, subjectLimit]
  cases (KeyMap.get? d subjectKey).bind Value.text? <;> rfl

section

variable {b : Bindings} {d : Derived}

theorem decides_subject (hd : Gets s r b d) : Decides s r 10 11
    ((match (KeyMap.get? d subjectKey).bind Value.text? with
      | none => .error .missingSubject
      | some text => .ok text : Except Error String).mapError Stop.error) := by
  refine .single .subject rfl (fun a h e hf => ?_) fun e h => ?_
  · cases hf with
    | subject hd' hn =>
      obtain ⟨-, rfl⟩ := hd.unique hd'
      rw [mapError_eq_ok_iff] at h
      split at h
      · cases h
      next text ht => exact hn text (subject_eq_some_iff.mp ht)
  · rw [mapError_error_iff] at h
    split at h
    next hnone =>
      cases h
      refine .subject hd fun text ht => ?_
      rw [subject_eq_some_iff.mpr ht] at hnone
      cases hnone
    · cases h

theorem decides_subjectLength (hd : Gets s r b d) {text : String}
    (ht : KeyMap.get? d subjectKey = some (.text text)) : Decides s r 11 12
    ((if 127 < text.utf8ByteSize then .error (.subjectTooLong text.utf8ByteSize 127) else .ok () :
      Except Error Unit).mapError Stop.error) := by
  refine .test .subjectLength rfl (.subjectLength hd ht) fun _ hf => ?_
  cases hf with
  | subjectLength hd' ht' hlt =>
    obtain ⟨-, rfl⟩ := hd.unique hd'
    cases ht.symm.trans ht'
    exact hlt

theorem decides_size (hd : Gets s r b d) : Decides s r 12 13 ((checkSize d).mapError .error) := by
  rw [checkSize, size_eq_totalBytes]
  refine .test .size rfl (.size hd) fun _ hf => ?_
  cases hf with
  | size hd' hlt =>
    obtain ⟨-, rfl⟩ := hd.unique hd'
    exact hlt

theorem decides_count (hd : Gets s r b d) :
    Decides s r 13 14 ((checkCount d).mapError .error) := by
  rw [checkCount, customCount_eq_customKeys]
  refine .test .count rfl (.count hd) fun _ hf => ?_
  cases hf with
  | count hd' hlt =>
    obtain ⟨-, rfl⟩ := hd.unique hd'
    exact hlt

/-- The subject comes before the size, and the size before the count. -/
theorem decides_derived (hd : Gets s r b d) :
    Decides s r 10 14 ((checkDerived d).mapError .error) := by
  rw [checkDerived, mapError_bind, checkSubject_eq, mapError_bind, bind_assoc]
  apply Decides.bind (by omega) (decides_subject hd)
  intro text h
  have ht : KeyMap.get? d subjectKey = some (.text text) := by
    rw [mapError_eq_ok_iff] at h
    split at h
    · cases h
    next ht =>
      cases h
      exact subject_eq_some_iff.mp ht
  apply Decides.bind (by omega) (decides_subjectLength hd ht)
  intro _ _
  rw [mapError_bind]
  apply Decides.bind (by omega) (decides_size hd)
  intro _ _
  exact decides_count hd

end

end ClaimMapping.Mapping
