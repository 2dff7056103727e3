import ClaimMapping.Proofs.Mapping.Failure

namespace ClaimMapping.Mapping

open Attribute
open Expression (Bindings Environment)
open Journal (bind_eq_ok_iff bind_eq_error_iff mapError_eq_ok_iff mapError_eq_error_iff)

variable {s : Setting} {r : Request} {α β : Type}

/-- What an outcome tells of the checks whose stages lie in a range: on success none of them fails,
and an error is that of the first one that does. -/
structure Decides (s : Setting) (r : Request) (lo hi : ℕ) (x : Except Stop α) : Prop where
  of_ok : ∀ a, x = .ok a → ∀ c e, Fails s r c e → lo ≤ c.stage → hi ≤ c.stage
  of_error : ∀ e, x = .error (.error e) → ∃ c, Fails s r c e ∧ c.stage < hi ∧
    ∀ c' e', Fails s r c' e' → lo ≤ c'.stage → c ≤ c'

/-- An error among the outcomes of a check that only reports errors. -/
theorem mapError_error_iff {x : Except Error α} {e : Error} :
    x.mapError Stop.error = .error (.error e) ↔ x = .error e := by
  cases x <;> simp [Except.mapError]

theorem mapError_bind (x : Except Error α) (f : α → Except Error β) :
    (x >>= f).mapError Stop.error =
      x.mapError Stop.error >>= fun a => (f a).mapError Stop.error := by
  cases x <;> rfl

namespace Decides

theorem nothing (n : ℕ) (a : α) : Decides s r n n (.ok a) where
  of_ok _ _ _ _ _ hn := hn
  of_error _ h := by cases h

/-- Steps in a row decide their ranges of stages together. -/
theorem bind {lo mid hi : ℕ} (hmid : mid ≤ hi) {x : Except Stop α} {f : α → Except Stop β}
    (hx : Decides s r lo mid x) (hf : ∀ a, x = .ok a → Decides s r mid hi (f a)) :
    Decides s r lo hi (x >>= f) where
  of_ok b h c e hc hlo := by
    obtain ⟨a, hxa, hfa⟩ := bind_eq_ok_iff.mp h
    exact (hf a hxa).of_ok b hfa c e hc (hx.of_ok a hxa c e hc hlo)
  of_error e h := by
    obtain hxe | ⟨a, hxa, hfa⟩ := bind_eq_error_iff.mp h
    · obtain ⟨c, hc, hlt, hmin⟩ := hx.of_error e hxe
      exact ⟨c, hc, hlt.trans_le hmid, hmin⟩
    · obtain ⟨c, hc, hlt, hmin⟩ := (hf a hxa).of_error e hfa
      refine ⟨c, hc, hlt, fun c' e' hc' hlo => hmin c' e' hc' ?_⟩
      exact hx.of_ok a hxa c' e' hc' hlo

/-- One stage. -/
theorem stage {n : ℕ} {x : Except Stop α}
    (hok : ∀ a, x = .ok a → ∀ c e, Fails s r c e → c.stage ≠ n)
    (herr : ∀ e, x = .error (.error e) → ∃ c, Fails s r c e ∧ c.stage = n ∧
      ∀ c' e', Fails s r c' e' → c'.stage = n → c ≤ c') : Decides s r n (n + 1) x where
  of_ok a h c e hc hn := by
    have hne := hok a h c e hc
    omega
  of_error e h := by
    obtain ⟨c, hc, rfl, hmin⟩ := herr e h
    refine ⟨c, hc, Nat.lt_succ_self _, fun c' e' hc' hn => ?_⟩
    rcases hn.lt_or_eq with hn | hn
    · exact (Check.lt_iff.mpr (.inl hn)).le
    · exact hmin c' e' hc' hn.symm

/-- A stage with one check. -/
theorem single (c : Check) (hc : c.perKey = false) {x : Except Stop α}
    (hok : ∀ a, x = .ok a → ∀ e, ¬ Fails s r c e)
    (herr : ∀ e, x = .error (.error e) → Fails s r c e) :
    Decides s r c.stage (c.stage + 1) x := by
  refine stage (fun a h c' e hf hn => ?_) fun e h => ⟨c, herr e h, rfl, fun c' e' _ hn => ?_⟩
  · exact hok a h e (Check.eq_of_stage_eq hc hn ▸ hf)
  · exact (Check.eq_of_stage_eq hc hn).ge

/-- A stage with one check that is a test. -/
theorem test (c : Check) (hc : c.perKey = false) {p : Prop} [Decidable p] {e : Error}
    (hp : p → Fails s r c e) (hf : ∀ e, Fails s r c e → p) :
    Decides s r c.stage (c.stage + 1)
      ((if p then .error e else .ok () : Except Error Unit).mapError Stop.error) := by
  refine single c hc (fun a h e' hfails => ?_) fun e' h => ?_
  · rw [if_pos (hf e' hfails)] at h
    cases h
  · rw [mapError_error_iff] at h
    split_ifs at h with hpos
    cases h
    exact hp hpos

/-- A stage with one check for each key. -/
theorem keyed {n : ℕ} (check : String → Check) (hn : ∀ c, c.stage = n → ∃ key, c = check key)
    (hs : ∀ key, (check key).stage = n) (ht : ∀ key, (check key).text = key) {x : Except Stop α}
    (hok : ∀ a, x = .ok a → ∀ key e, ¬ Fails s r (check key) e)
    (herr : ∀ e, x = .error (.error e) → ∃ key, Fails s r (check key) e ∧
      ∀ key' e', Fails s r (check key') e' → key ≤ key') : Decides s r n (n + 1) x := by
  refine stage (fun a h c e hf hc => ?_) fun e h => ?_
  · obtain ⟨key, rfl⟩ := hn c hc
    exact hok a h key e hf
  · obtain ⟨key, hf, hmin⟩ := herr e h
    refine ⟨check key, hf, hs key, fun c' e' hf' hc' => ?_⟩
    obtain ⟨key', rfl⟩ := hn c' hc'
    rcases (hmin key' e' hf').lt_or_eq with hlt | rfl
    · exact (Check.lt_iff.mpr (.inr ⟨by rw [hs, hs], .inl (by rwa [ht, ht])⟩)).le
    · exact le_rfl

end Decides

theorem Request.check_eq (r : Request) :
    r.check =
      ((if r.payload = "" then .error (.invalidInput .emptyPayload) else .ok ()) >>= fun () =>
      (match r.mapping with
        | none => .error (.invalidInput .missingMapping)
        | some m => .ok m) >>= fun m =>
      (if m = [] then .error (.invalidInput .emptyMapping) else .ok ()) >>= fun () =>
      match (KeyMap.keys m).find? fun key => (Key.read? key).isNone with
      | some key => .error (.invalidMappingKey key)
      | none => .ok m) := by
  unfold Request.check
  by_cases hp : r.payload = ""
  · rw [if_pos hp, if_pos hp]
    rfl
  rw [if_neg hp, if_neg hp]
  cases r.mapping with
  | none => rfl
  | some m => cases m <;> rfl

theorem decides_payload : Decides s r 0 1
    ((if r.payload = "" then .error (.invalidInput .emptyPayload) else .ok () :
      Except Error Unit).mapError Stop.error) :=
  .test .payload rfl .payload fun _ hf => by
    cases hf with
    | payload h => exact h

theorem decides_missing : Decides s r 1 2
    ((match r.mapping with
      | none => .error (.invalidInput .missingMapping)
      | some m => .ok m : Except Error (KeyMap String)).mapError Stop.error) := by
  refine .single .missing rfl (fun a h e hf => ?_) fun e h => ?_
  · cases hf with
    | missing hm =>
      rw [hm] at h
      cases h
  · rw [mapError_error_iff] at h
    cases hm : r.mapping with
    | none =>
      rw [hm] at h
      cases h
      exact .missing hm
    | some m =>
      rw [hm] at h
      cases h

section

variable {m : KeyMap String}

theorem decides_empty (hm : r.mapping = some m) : Decides s r 2 3
    ((if m = [] then .error (.invalidInput .emptyMapping) else .ok () :
      Except Error Unit).mapError Stop.error) := by
  refine .test .empty rfl (fun h => ?_) fun _ hf => ?_
  · exact .empty (h ▸ hm)
  · cases hf with
    | empty h =>
      cases hm.symm.trans h
      rfl

/-- Keys are looked through in order, so the first bad one is the least. -/
theorem decides_key (hm : r.mapping = some m) (ho : KeyMap.Ordered m) : Decides s r 3 4
    ((match (KeyMap.keys m).find? fun key => (Key.read? key).isNone with
      | some key => .error (.invalidMappingKey key)
      | none => .ok m : Except Error (KeyMap String)).mapError Stop.error) := by
  refine .keyed .key (fun c hc => ?_) (fun _ => rfl) (fun _ => rfl) (fun a h key e hf => ?_)
    fun e h => ?_
  · cases c <;> simp [Check.stage] at hc ⊢
  · cases hf with
    | key hm' hk hn =>
      cases hm.symm.trans hm'
      split at h
      · cases h
      next hnone =>
        exact absurd (isNone_read?_iff.mpr hn) (List.find?_eq_none.mp hnone key hk)
  · rw [mapError_error_iff] at h
    split at h
    next key hsome =>
      cases h
      obtain ⟨hn, before, after, hsplit, hb⟩ := List.find?_eq_some_iff_append.mp hsome
      refine ⟨key, .key hm (hsplit ▸ by simp) (isNone_read?_iff.mp hn), fun key' e' hf => ?_⟩
      cases hf with
      | key hm' hk hn' =>
        cases hm.symm.trans hm'
        refine not_lt.mp fun hlt => ?_
        have hkeys : ((before ++ key :: after).map id).Pairwise (· < ·) := by
          rw [List.map_id, ← hsplit]
          exact ho
        have hn := hb key' (KeyMap.mem_before_of_lt hkeys (hsplit ▸ hk) hlt)
        rw [isNone_read?_iff.mpr hn'] at hn
        cases hn
    · cases h

end

/-- The checks of a request come first, in the order of their stages. -/
theorem decides_check (hr : ∀ m, r.mapping = some m → KeyMap.Ordered m) :
    Decides s r 0 4 (r.check.mapError .error) := by
  rw [Request.check_eq]
  simp only [mapError_bind]
  refine .bind (by omega) decides_payload fun () hp => .bind (by omega) decides_missing fun m h =>
    ?_
  have hm : r.mapping = some m := by
    rw [mapError_eq_ok_iff] at h
    split at h
    · cases h
    next hm =>
      cases h
      exact hm
  exact .bind (by omega) (decides_empty hm) fun () he => decides_key hm (hr m hm)

theorem checkLength_eq (target : Target) (source : String) (limit : Nat) :
    checkLength target source limit =
      if limit < source.utf8ByteSize then
        .error (.expressionTooLong target source.utf8ByteSize limit)
      else .ok () := by
  rw [checkLength, byteSize_eq_utf8ByteSize]

theorem checkLengths_eq_error {m : KeyMap String} {e : Error} (h : checkLengths m = .error e) :
    ∃ before key source after, m = before ++ (key, source) :: after ∧
      (∀ e ∈ before, e.2.utf8ByteSize ≤ 2048) ∧ 2048 < source.utf8ByteSize ∧
      e = .expressionTooLong (.attribute key) source.utf8ByteSize 2048 := by
  induction m with
  | nil => cases h
  | cons entry m ih =>
    obtain ⟨key, source⟩ := entry
    rw [checkLengths, checkLength_eq] at h
    by_cases hlt : mappingLimit < source.utf8ByteSize
    · rw [if_pos hlt] at h
      cases h
      exact ⟨[], key, source, m, rfl, by simp, hlt, rfl⟩
    · rw [if_neg hlt] at h
      obtain ⟨before, key', source', after, rfl, hb, hlt', rfl⟩ := ih h
      exact ⟨(key, source) :: before, key', source', after, rfl,
        List.forall_mem_cons.mpr ⟨not_lt.mp hlt, hb⟩, hlt', rfl⟩

theorem checkNames_eq_error {keys : List String} {e : Error} (h : checkNames keys = .error e) :
    ∃ before name after, keys = before ++ customKey name :: after ∧
      (∀ key ∈ before, invalidName? key = none) ∧ ¬ IsName name ∧
      e = .invalidAttributeName name := by
  unfold checkNames at h
  split at h
  next name hf =>
    cases h
    obtain ⟨before, key, after, hk, hn, hb⟩ := List.findSome?_eq_some_iff.mp hf
    obtain ⟨rfl, hname⟩ := invalidName?_eq_some_iff.mp hn
    exact ⟨before, name, after, hk, hb, hname, rfl⟩
  · cases h

section

variable {m : KeyMap String}

theorem decides_mappingLength (hm : r.mapping = some m) (ho : KeyMap.Ordered m) :
    Decides s r 5 6 ((checkLengths m).mapError .error) := by
  refine .keyed .mappingLength (fun c hc => ?_) (fun _ => rfl) (fun _ => rfl)
    (fun a h key e hf => ?_) fun e h => ?_
  · cases c <;> simp [Check.stage] at hc ⊢
  · cases hf with
    | mappingLength hm' he hlt =>
      cases hm.symm.trans hm'
      exact absurd hlt (not_lt.mpr (checkLengths_eq_ok_iff.mp (mapError_eq_ok_iff.mp h) _ he))
  · obtain ⟨before, key, source, after, rfl, hb, hlt, rfl⟩ :=
      checkLengths_eq_error (mapError_error_iff.mp h)
    refine ⟨key, .mappingLength hm (by simp) hlt, fun key' e' hf => ?_⟩
    cases hf with
    | mappingLength hm' he hlt' =>
      cases hm.symm.trans hm'
      refine not_lt.mp fun hk => ?_
      exact absurd hlt' (not_lt.mpr (hb _ (KeyMap.mem_before_of_lt ho he hk)))

theorem decides_conditionLength :
    Decides s r 6 7 ((checkLength .condition r.condition conditionLimit).mapError .error) := by
  rw [checkLength_eq]
  exact .test .conditionLength rfl .conditionLength fun _ hf => by
    cases hf with
    | conditionLength h => exact h

theorem decides_name (hm : r.mapping = some m) (ho : KeyMap.Ordered m) :
    Decides s r 7 8 ((checkNames (KeyMap.keys m)).mapError .error) := by
  refine .keyed .name (fun c hc => ?_) (fun _ => rfl) (fun _ => rfl)
    (fun a h key e hf => ?_) fun e h => ?_
  · cases c <;> simp [Check.stage] at hc ⊢
  · obtain ⟨m', name, hm', rfl, hk, hn, -⟩ := hf.of_name
    cases hm.symm.trans hm'
    exact hn (checkNames_eq_ok_iff.mp (mapError_eq_ok_iff.mp h) name hk)
  · obtain ⟨before, name, after, hsplit, hb, hn, rfl⟩ :=
      checkNames_eq_error (mapError_error_iff.mp h)
    refine ⟨customKey name, .name hm (hsplit ▸ by simp) hn, fun key' e' hf => ?_⟩
    obtain ⟨m', name', hm', rfl, hk, hn', -⟩ := hf.of_name
    cases hm.symm.trans hm'
    refine not_lt.mp fun hlt => ?_
    have hkeys : ((before ++ customKey name :: after).map id).Pairwise (· < ·) := by
      rw [List.map_id, ← hsplit]
      exact ho
    have hnone : invalidName? (customKey name') = none :=
      hb _ (KeyMap.mem_before_of_lt hkeys (hsplit ▸ hk) hlt)
    rw [invalidName?_eq_some_iff.mpr ⟨rfl, hn'⟩] at hnone
    cases hnone

theorem decides_time (hm : r.mapping = some m) :
    Decides s r 8 9 ((checkTimes (m.map Prod.snd ++ [r.condition])).mapError .error) := by
  have hiff : (∀ source ∈ m.map Prod.snd ++ [r.condition], ¬ MakesTimeOfNumber source) ↔
      ¬ ((∃ e ∈ m, MakesTimeOfNumber e.2) ∨ MakesTimeOfNumber r.condition) := by
    rw [List.forall_mem_append, List.forall_mem_map, List.forall_mem_singleton, not_or]
    simp only [not_exists, not_and]
  refine .single .time rfl (fun a h e hf => ?_) fun e h => ?_
  · cases hf with
    | time hm' ht =>
      cases hm.symm.trans hm'
      exact hiff.mp (checkTimes_eq_ok_iff.mp (mapError_eq_ok_iff.mp h)) ht
  · rw [mapError_error_iff] at h
    have ht : (∃ e ∈ m, MakesTimeOfNumber e.2) ∨ MakesTimeOfNumber r.condition := by
      by_contra hno
      rw [checkTimes_eq_ok_iff.mpr (hiff.mpr hno)] at h
      cases h
    unfold checkTimes at h
    split_ifs at h
    cases h
    exact .time hm ht

/-- Lengths, names and the guard come before any expression is read. -/
theorem decides_sources (hm : r.mapping = some m) (ho : KeyMap.Ordered m) :
    Decides s r 5 9 ((checkSources m r.condition).mapError .error) := by
  rw [checkSources]
  simp only [mapError_bind]
  apply Decides.bind (by omega) (decides_mappingLength hm ho)
  intro _ _
  apply Decides.bind (by omega) decides_conditionLength
  intro _ _
  apply Decides.bind (by omega) (decides_name hm ho)
  intro _ _
  exact decides_time hm

end

end ClaimMapping.Mapping
