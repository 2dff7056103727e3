import ClaimMapping.Proofs.Mapping.ValueDecision

namespace ClaimMapping.Mapping

open Attribute
open Expression (Bindings)
open Journal (mapError_eq_ok_iff mapError_eq_error_iff)

variable {s : Setting} {r : Request} {p : Provider} {b : Bindings} {d : Derived}

theorem Fails.asked {c : Check} {e : Error} (h : Fails s r c e) (hc : 14 ≤ c.stage) :
    r.condition ≠ "" := by
  cases h with
  | environment h => exact h
  | families h => exact h
  | conditionCompile h => exact h
  | verdict h => exact h
  | _ => simp [Check.stage] at hc

/-- The variables are looked through in order, so the first one that cannot be nested is the
least. -/
theorem decides_environment (hc : r.condition ≠ "") (hp : Resolves s r p b) (hb : KeyMap.Ordered b)
    (hd : KeyMap.Ordered d) (hf : ∀ key ∈ KeyMap.keys d, InFamily key) :
    Decides s r 14 15 (((nest (overlay b d)).mapError .environment).mapError .error) := by
  refine .keyed .environment (fun c hc => ?_) (fun _ => rfl) (fun _ => rfl)
    (fun a h key e hfails => ?_) fun e h => ?_
  · cases c <;> simp [Check.stage] at hc ⊢
  · cases hfails with
    | environment _ hp' he hk hv =>
      obtain ⟨rfl, rfl⟩ := hp.unique hp'
      have hmem := (mem_overlay_iff hb hd hf hk).mpr he
      obtain hin | ⟨members, hobject⟩ :=
        nestAll_eq_ok (mapError_eq_ok_iff.mp (mapError_eq_ok_iff.mp h)) _ hmem
      · exact hk hin
      · exact hv members hobject
  · obtain ⟨key, hn, rfl⟩ := mapError_eq_error_iff.mp (mapError_error_iff.mp h)
    obtain ⟨before, value, after, hsplit, hbefore, hk, hv⟩ := nestAll_eq_error hn
    have he : (key, value) ∈ b := (mem_overlay_iff hb hd hf hk).mp (hsplit ▸ by simp)
    refine ⟨key, .environment hc hp he hk hv, fun key' e' hfails => not_lt.mp fun hlt => ?_⟩
    cases hfails with
    | environment _ hp' he' hk' hv' =>
      obtain ⟨rfl, rfl⟩ := hp.unique hp'
      have ho := ordered_overlay hb d
      have hmem := (mem_overlay_iff hb hd hf hk').mpr he'
      rw [hsplit] at ho hmem
      obtain hin | ⟨members, hobject⟩ := hbefore _ (KeyMap.mem_before_of_lt ho hmem hlt)
      · exact hk' hin
      · exact hv' members hobject

/-- Making the variables of a condition is one check: whether they nest too deep to be read
again. -/
theorem decides_families (hc : r.condition ≠ "") (hd : Gets s r b d) {nested : KeyMap Json}
    (hn : nest (overlay b d) = .ok nested) : Decides s r 15 16
    (((Provider.Condition.read (Json.compact (.object nested))).mapError
      (.parse Provider.condition.name)).mapError .error) := by
  refine .single .families rfl (fun a h e hf => ?_) fun e h => ?_
  · cases hf with
    | families _ hd' hn' he =>
      obtain ⟨rfl, rfl⟩ := hd.unique hd'
      cases hn.symm.trans hn'
      rw [he] at h
      cases h
  · obtain ⟨e', he, rfl⟩ := mapError_eq_error_iff.mp (mapError_error_iff.mp h)
    exact .families hc hd hn he

theorem decides_conditionCompile (hc : r.condition ≠ "") : Decides s r 16 17
    ((Expression.read r.condition).mapError (Stop.ofReading .condition)) := by
  refine .single .conditionCompile rfl (fun a h e hf => ?_) fun e h => ?_
  · cases hf with
    | conditionCompile _ he =>
      rw [he] at h
      cases h
  · obtain ⟨failure, he, hs⟩ := mapError_eq_error_iff.mp h
    cases failure with
    | mistake e' =>
      cases hs
      exact .conditionCompile hc he
    | crash => cases hs

/-- Everything but the value true rejects, an error of the condition included. -/
theorem verdict_eq_error_iff {outcome : Except Expression.Stop Expression.Value} {e : Error} :
    (verdict outcome).outcome = .error (.error e) ↔
      outcome ≠ .error .crash ∧ outcome ≠ .ok (.bool true) ∧ e = .conditionRejected := by
  have hr {n : Journal.Note} : (Journal.Traced.note n >>= fun _ =>
      (Journal.Traced.refuse (.error .conditionRejected) : Journal.Traced Stop Unit)).outcome =
        .error (.error e) ↔ e = .conditionRejected := by
    constructor
    · intro h
      cases h
      rfl
    · intro h
      subst h
      rfl
  unfold verdict
  split
  next => exact iff_of_false (fun h => by cases h) fun h => h.2.1 rfl
  next v hv =>
    rw [hr]
    refine ⟨fun h => ⟨(fun h => by cases h), (fun h => hv ?_), h⟩, fun h => h.2.2⟩
    cases h
    rfl
  next =>
    rw [hr]
    exact ⟨fun h => ⟨(fun h => by cases h), (fun h => by cases h), h⟩, fun h => h.2.2⟩
  next => exact iff_of_false (fun h => by cases h) fun h => h.1 rfl

theorem decides_verdict (hc : r.condition ≠ "") (hd : Gets s r b d) {v : Bindings}
    {x : Expression.Expr} (hv : conditionBindings b d = .ok v)
    (hx : Expression.read r.condition = .ok x) : Decides s r 17 18
    (verdict ((conditionEnvironment s.library).evaluate x v)).outcome := by
  refine .single .verdict rfl (fun a h e hf => ?_) fun e h => ?_
  · cases hf with
    | verdict _ hd' hv' hx' hgives _ hne =>
      obtain ⟨rfl, rfl⟩ := hd.unique hd'
      cases hv.symm.trans hv'
      cases hx.symm.trans hx'
      exact hne (hgives ▸ verdict_eq_ok_iff.mp h)
  · obtain ⟨hfinished, hne, rfl⟩ := verdict_eq_error_iff.mp h
    exact .verdict hc hd hv hx rfl hfinished hne

/-- The condition comes last, and only when it is asked. -/
theorem decides_accept (hd : Gets s r b d) (hp : Resolves s r p b) (hb : KeyMap.Ordered b)
    (hordered : KeyMap.Ordered d) (hf : ∀ key ∈ KeyMap.keys d, InFamily key) :
    Decides s r 14 18 (acceptCondition s.library r.condition b d).outcome := by
  by_cases hc : r.condition = ""
  · rw [acceptCondition, if_pos hc]
    exact ⟨fun a h c e hfails hs => absurd hc (hfails.asked hs), fun e h => by cases h⟩
  rw [acceptCondition_outcome hc, checkCondition_outcome, conditionBindings, mapError_bind,
    bind_assoc]
  refine .bind (by omega) (decides_environment hc hp hb hordered hf) fun nested hn => ?_
  rw [mapError_eq_ok_iff, mapError_eq_ok_iff] at hn
  refine .bind (by omega) (decides_families hc hd hn) fun v hv => ?_
  rw [mapError_eq_ok_iff] at hv
  refine .bind (by omega) (decides_conditionCompile hc) fun x hx => ?_
  have hbinds : conditionBindings b d = .ok v := by
    rw [conditionBindings, hn]
    exact hv
  exact decides_verdict hc hd hbinds (mapError_eq_ok_iff.mp hx)

theorem DerivesAll.keys_eq {env : Expression.Environment} {m : KeyMap String}
    (h : DerivesAll env b m d) : KeyMap.keys d = KeyMap.keys m := by
  induction h with
  | nil => rfl
  | cons h _ ih => rw [KeyMap.keys_cons, KeyMap.keys_cons, h.1, ih]

theorem IsTargetKey.inFamily {key : String} (h : IsTargetKey key) : InFamily key := by
  obtain rfl | rfl | ⟨name, rfl⟩ := h
  · exact ⟨"subject", .inl rfl⟩
  · exact ⟨"groups", .inl rfl⟩
  · exact ⟨name, .inr (attribute_point_append name).symm⟩

theorem Resolves.mem (h : Resolves s r p b) :
    p ∈ s.providers ∧ (p.parse r.payload).outcome = .ok b := by
  obtain ⟨_, _, _, _, hs, _, _, ha⟩ | ⟨_, _, _, hs, _, ha⟩ := h
  · exact ⟨hs ▸ by simp, ha⟩
  · exact ⟨hs ▸ by simp, ha⟩

theorem decides_provider : Decides s r 4 5 ((s.resolve r).outcome.mapError .error) := by
  refine .single .provider rfl (fun a h e hf => ?_) fun e h => ?_
  · rw [resolve_eq_error_iff.mpr hf] at h
    cases h
  · exact resolve_eq_error_iff.mp (mapError_error_iff.mp h)

/-- All steps of a run together decide all checks. -/
theorem decides_run
    (hs : ∀ p ∈ s.providers, ∀ b, (p.parse r.payload).outcome = .ok b → KeyMap.Ordered b)
    (hr : ∀ m, r.mapping = some m → KeyMap.Ordered m) :
    Decides s r 0 18 (s.run r).outcome := by
  rw [run_outcome]
  apply Decides.bind (by omega) (decides_check hr)
  intro m h
  obtain ⟨-, hm, -, hk⟩ := Request.check_eq_ok_iff.mp (mapError_eq_ok_iff.mp h)
  apply Decides.bind (by omega) decides_provider
  intro resolved h
  obtain ⟨p, b⟩ := resolved
  have hp := Setting.resolve_eq_ok_iff.mp (mapError_eq_ok_iff.mp h)
  apply Decides.bind (by omega) (decides_sources hm (hr m hm))
  intro _ _
  apply Decides.bind (by omega) (decides_entries hm (hr m hm) hp)
  intro d h
  have hall := evaluateMapping_eq_ok_iff.mp h
  have hd : Gets s r b d := ⟨hm, hp, hall⟩
  have hordered : KeyMap.Ordered d := by
    rw [KeyMap.Ordered, hall.keys_eq]
    exact hr m hm
  have hf : ∀ key ∈ KeyMap.keys d, InFamily key := fun key hkey =>
    (hk key (hall.keys_eq ▸ hkey)).inFamily
  have hb := hs p hp.mem.1 b hp.mem.2
  apply Decides.bind (by omega) (decides_derived hd)
  intro _ _
  apply Decides.bind (by omega) (decides_accept hd hp hb hordered hf)
  intro _ _
  exact .nothing 18 d

/-- There are eighteen stages. -/
theorem Check.stage_lt (c : Check) : c.stage < 18 := by
  cases c <;> simp [stage]

/-- A run that does not crash fails with the error of the first of all checks that fail, whatever
the others would give. -/
theorem run_eq_error_iff (s : Setting) (r : Request) (e : Error)
    (hs : ∀ p ∈ s.providers, ∀ b, (p.parse r.payload).outcome = .ok b → KeyMap.Ordered b)
    (hr : ∀ m, r.mapping = some m → KeyMap.Ordered m)
    (hc : (s.run r).outcome ≠ .error .crash) :
    (s.run r).outcome = .error (.error e) ↔
      ∃ c, Fails s r c e ∧ IsLeast {c | ∃ e, Fails s r c e} c := by
  have hd := decides_run hs hr
  have hfirst {e : Error} (h : (s.run r).outcome = .error (.error e)) :
      ∃ c, Fails s r c e ∧ IsLeast {c | ∃ e, Fails s r c e} c := by
    obtain ⟨c, hf, -, hmin⟩ := hd.of_error e h
    exact ⟨c, hf, ⟨e, hf⟩, fun c' ⟨e', hf'⟩ => hmin c' e' hf' (Nat.zero_le _)⟩
  refine ⟨hfirst, ?_⟩
  intro h
  obtain ⟨c, hf, hleast⟩ := h
  cases ho : (s.run r).outcome with
  | ok d => exact absurd (hd.of_ok d ho c e hf (Nat.zero_le _)) (not_le.mpr c.stage_lt)
  | error stop =>
    cases stop with
    | crash => exact absurd ho hc
    | error e' =>
      obtain ⟨c', hf', hleast'⟩ := hfirst ho
      obtain rfl := hleast.unique hleast'
      rw [hf.unique hr hf']

/-- Takes any payload for an empty assertion. -/
def anyPayload : Provider :=
  ⟨"any", [.dynamic assertionName], fun _ => .pure (Provider.assertion (.object []))⟩

/-- The first entry gives a number, the second one and the condition are no expressions. -/
def manyDefects : Request :=
  ⟨"x", some [("attribute.a", "1"), ("attribute.b", "(")], "(", none⟩

/-- The type of the lesser key is found wrong before the other source is read. -/
theorem run_manyDefects :
    (∀ p ∈ [anyPayload], ∀ b, (p.parse manyDefects.payload).outcome = .ok b →
      KeyMap.Ordered b) ∧
    (∀ m, manyDefects.mapping = some m → KeyMap.Ordered m) ∧
    (Setting.run ⟨[anyPayload], .standard⟩ manyDefects).outcome ≠ .error .crash ∧
    ∃ c, Fails ⟨[anyPayload], .standard⟩ manyDefects c
        (.wrongType "attribute.a" .text (.value .int)) ∧
      IsLeast {c | ∃ e, Fails ⟨[anyPayload], .standard⟩ manyDefects c e} c := by
  have hrun : (Setting.run ⟨[anyPayload], .standard⟩ manyDefects).outcome =
      .error (.error (.wrongType "attribute.a" .text (.value .int))) := rfl
  have hs : ∀ p ∈ [anyPayload], ∀ b, (p.parse manyDefects.payload).outcome = .ok b →
      KeyMap.Ordered b := by
    intro p hp b hb
    obtain rfl := List.mem_singleton.mp hp
    cases hb
    exact List.pairwise_singleton _ _
  have hr : ∀ m, manyDefects.mapping = some m → KeyMap.Ordered m := by
    intro m hm
    cases hm
    exact KeyMap.ordered_cons.mpr ⟨by decide, List.pairwise_singleton _ _⟩
  have hc : (Setting.run ⟨[anyPayload], .standard⟩ manyDefects).outcome ≠ .error .crash := by
    rw [hrun]
    intro h
    cases h
  exact ⟨hs, hr, hc, (run_eq_error_iff ⟨[anyPayload], .standard⟩ manyDefects _ hs hr hc).mp hrun⟩

end ClaimMapping.Mapping
