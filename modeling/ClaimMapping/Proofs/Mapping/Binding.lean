import ClaimMapping.Proofs.Mapping.FirstFailure
import ClaimMapping.Proofs.Mapping.Gate
import ClaimMapping.Proofs.Provider.Declaration

namespace ClaimMapping.Mapping

open Attribute
open Expression (Bindings Conforms Environment Library)
open Journal (Note bind_eq_ok_iff bind_eq_error_iff seq_eq_ok_iff mapError_eq_ok_iff
  mapError_eq_error_iff map_eq_error_iff)
open Journal.Traced (mem_notes_bind_iff)
open Provider (builtin oidc saml)

/-- Whether an environment refused bindings, or a condition could not nest one. -/
def Error.isBinding : Error → Bool
  | .evaluate _ (.bind _) => true
  | .environment _ => true
  | _ => false

section

variable {e : Error}

theorem isBinding_of_check {r : Request} (h : r.check = .error e) : e.isBinding = false := by
  unfold Request.check at h
  split_ifs at h
  · cases h
    rfl
  split at h
  case h_1 =>
    cases h
    rfl
  case h_2 =>
    cases h
    rfl
  case h_3 =>
    split at h
    case h_1 =>
      cases h
      rfl
    case h_2 => cases h

theorem isBinding_of_resolve {s : Setting} {r : Request} (h : (s.resolve r).outcome = .error e) :
    e.isBinding = false := by
  cases resolve_eq_error_iff.mp h <;> rfl

theorem isBinding_of_checkLength {target : Target} {source : String} {limit : Nat}
    (h : checkLength target source limit = .error e) : e.isBinding = false := by
  unfold checkLength at h
  split_ifs at h
  cases h
  rfl

theorem isBinding_of_checkTimes {sources : List String} (h : checkTimes sources = .error e) :
    e.isBinding = false := by
  unfold checkTimes at h
  split_ifs at h
  cases h
  rfl

theorem isBinding_of_checkSources {m : KeyMap String} {condition : String}
    (h : checkSources m condition = .error e) : e.isBinding = false := by
  obtain h | ⟨-, -, h⟩ := bind_eq_error_iff.mp h
  · obtain ⟨_, _, _, _, -, -, -, rfl⟩ := checkLengths_eq_error h
    rfl
  obtain h | ⟨-, -, h⟩ := bind_eq_error_iff.mp h
  · exact isBinding_of_checkLength h
  obtain h | ⟨-, -, h⟩ := bind_eq_error_iff.mp h
  · obtain ⟨_, _, _, -, -, -, rfl⟩ := checkNames_eq_error h
    rfl
  · exact isBinding_of_checkTimes h

theorem isBinding_of_checkSubject {d : Derived} (h : checkSubject d = .error e) :
    e.isBinding = false := by
  unfold checkSubject at h
  split at h
  case h_1 =>
    cases h
    rfl
  case h_2 =>
    split_ifs at h
    cases h
    rfl

theorem isBinding_of_checkDerived {d : Derived} (h : checkDerived d = .error e) :
    e.isBinding = false := by
  obtain h | ⟨-, -, h⟩ := bind_eq_error_iff.mp h
  · exact isBinding_of_checkSubject h
  obtain h | ⟨-, -, h⟩ := bind_eq_error_iff.mp h
  · unfold checkSize at h
    split_ifs at h
    cases h
    rfl
  · unfold checkCount at h
    split_ifs at h
    cases h
    rfl

theorem isBinding_of_attributeOf {key : String} {v : Expression.Value}
    (h : attributeOf key v = .error e) : e.isBinding = false := by
  unfold attributeOf at h
  split_ifs at h
  · obtain ⟨-, rfl⟩ | ⟨_, _, _, -, -, rfl⟩ := textsOf_eq_error_iff.mp (map_eq_error_iff.mp h)
    · rfl
    · rfl
  · obtain ⟨-, rfl⟩ := textOf_eq_error_iff.mp (map_eq_error_iff.mp h)
    rfl

/-- The mapping is evaluated over bindings that fit, so none of its errors is one of binding. -/
theorem isBinding_of_evaluateMapping {env : Environment} {b : Bindings}
    (hb : Conforms env.declarations b) {m : KeyMap String}
    (h : (evaluateMapping env b m).outcome = .error (.error e)) : e.isBinding = false := by
  obtain ⟨_, key, source, _, _, -, -, h⟩ := evaluateMapping_eq_error h
  rw [evaluateEntry_outcome_eq] at h
  split at h
  case h_1 => cases h
  case h_2 =>
    cases h
    rfl
  case h_3 x _ =>
    split at h
    case h_1 => cases h
    case h_2 defect he =>
      cases h
      cases defect with
      | bind defect => exact absurd he (Environment.evaluate_ne_bind hb x defect)
      | execute => rfl
    case h_3 =>
      obtain ⟨e', he, h⟩ := mapError_eq_error_iff.mp h
      cases h
      exact isBinding_of_attributeOf he

/-- A condition is asked over variables that its declarations accept. -/
theorem conforms_of_conditionBindings {b v : Bindings} {d : Derived}
    (h : conditionBindings b d = .ok v) : Conforms Provider.Condition.declarations v := by
  obtain ⟨nested, -, h⟩ := bind_eq_ok_iff.mp h
  exact Provider.Condition.conforms_of_read (mapError_eq_ok_iff.mp h)

/-- Over an assertion and attributes of the families there is nothing that cannot be nested. -/
theorem isBinding_of_conditionBindings {members : KeyMap Json} {d : Derived}
    (hd : ∀ key ∈ KeyMap.keys d, InFamily key)
    (h : conditionBindings (Provider.assertion (.object members)) d = .error e) :
    e.isBinding = false := by
  obtain h | ⟨nested, -, h⟩ := bind_eq_error_iff.mp h
  · obtain ⟨key, hn, rfl⟩ := mapError_eq_error_iff.mp h
    obtain ⟨before, value, after, hsplit, -, hkey, hvalue⟩ := nestAll_eq_error hn
    have hmem : (key, value) ∈ overlay (Provider.assertion (.object members)) d :=
      hsplit ▸ by simp
    obtain hmem | hmem := KeyMap.mem_of_mem_insertAll hmem
    · have hkeys := KeyMap.mem_keys_of_mem hmem
      rw [KeyMap.keys_mapValues] at hkeys
      exact absurd (hd key hkeys) hkey
    · obtain ⟨-, rfl⟩ := Prod.mk.inj (List.mem_singleton.mp hmem)
      exact absurd rfl (hvalue members)
  · obtain ⟨e, -, rfl⟩ := mapError_eq_error_iff.mp h
    rfl

/-- Among the errors of the condition only that of its variables is about bindings. -/
theorem conditionBindings_of_acceptCondition {l : Library} {condition : String} {b : Bindings}
    {d : Derived} (h : (acceptCondition l condition b d).outcome = .error (.error e))
    (he : e.isBinding = true) : conditionBindings b d = .error e := by
  by_cases hc : condition = ""
  · rw [acceptCondition, if_pos hc] at h
    cases h
  rw [acceptCondition_outcome hc, checkCondition_outcome] at h
  obtain h | ⟨v, -, h⟩ := bind_eq_error_iff.mp h
  · obtain ⟨e', hb, h⟩ := mapError_eq_error_iff.mp h
    cases h
    exact hb
  obtain h | ⟨x, -, h⟩ := bind_eq_error_iff.mp h
  · obtain ⟨failure, -, h⟩ := mapError_eq_error_iff.mp h
    cases failure <;> cases h
    cases he
  · obtain ⟨-, -, rfl⟩ := verdict_eq_error_iff.mp h
    cases he

end

section

variable {s : Setting} {r : Request}

/-- An error about bindings comes up over the bindings of the payload: in the mapping, or where the
condition nests them together with the attributes. -/
theorem exists_resolves_of_isBinding {e : Error} (h : (s.run r).outcome = .error (.error e))
    (he : e.isBinding = true) :
    ∃ p b, Resolves s r p b ∧
      ((∃ m, (evaluateMapping ⟨p.declarations, s.library⟩ b m).outcome = .error (.error e)) ∨
        ∃ d, (∀ key ∈ KeyMap.keys d, InFamily key) ∧ conditionBindings b d = .error e) := by
  have hearly {α : Type} {x : Except Error α} (hx : ∀ e, x = .error e → e.isBinding = false) :
      x.mapError Stop.error ≠ .error (.error e) := by
    intro h
    rw [hx e (mapError_error_iff.mp h)] at he
    cases he
  rw [run_outcome] at h
  obtain h | ⟨m, hm, h⟩ := bind_eq_error_iff.mp h
  · exact absurd h (hearly fun _ => isBinding_of_check)
  obtain h | ⟨⟨p, b⟩, hp, h⟩ := bind_eq_error_iff.mp h
  · exact absurd h (hearly fun _ => isBinding_of_resolve)
  refine ⟨p, b, Setting.resolve_eq_ok_iff.mp (mapError_eq_ok_iff.mp hp), ?_⟩
  obtain h | ⟨-, -, h⟩ := bind_eq_error_iff.mp h
  · exact absurd h (hearly fun _ => isBinding_of_checkSources)
  obtain h | ⟨d, hd, h⟩ := bind_eq_error_iff.mp h
  · exact .inl ⟨m, h⟩
  obtain h | ⟨-, -, h⟩ := bind_eq_error_iff.mp h
  · exact absurd h (hearly fun _ => isBinding_of_checkDerived)
  obtain h | ⟨-, -, h⟩ := bind_eq_error_iff.mp h
  · refine .inr ⟨d, fun key hkey => ?_, conditionBindings_of_acceptCondition h he⟩
    obtain ⟨-, -, -, hkeys⟩ := Request.check_eq_ok_iff.mp (mapError_eq_ok_iff.mp hm)
    rw [(evaluateMapping_eq_ok_iff.mp hd).keys_eq] at hkey
    exact (hkeys key hkey).inFamily
  · cases h

theorem notes_of_registry_resolve {providers : Provider.Registry} {payload : String} {n : Note}
    (h : n ∈ (providers.resolve payload).notes) :
    n.origin = .provider ∨ ∃ p ∈ providers, n ∈ (p.parse payload).notes := by
  induction providers with
  | nil => cases h
  | cons p providers ih =>
    unfold Provider.Registry.resolve at h
    dsimp only at h
    split at h
    case h_1 =>
      obtain h | h := List.mem_append.mp h
      · exact .inr ⟨p, List.mem_cons_self, h⟩
      · obtain rfl := List.mem_singleton.mp h
        exact .inl rfl
    case h_2 =>
      obtain h | h := List.mem_append.mp h
      · exact .inr ⟨p, List.mem_cons_self, h⟩
      obtain rfl | h := List.mem_cons.mp h
      · exact .inl rfl
      · exact (ih h).imp_right fun ⟨q, hq, h⟩ => ⟨q, List.mem_cons_of_mem _ hq, h⟩

theorem notes_of_resolve {n : Note} (h : n ∈ (s.resolve r).notes) :
    n.origin = .provider ∨ ∃ p ∈ s.providers, n ∈ (p.parse r.payload).notes := by
  unfold Setting.resolve at h
  split at h
  case h_1 => exact notes_of_registry_resolve h
  case h_2 =>
    split at h
    case h_1 => cases h
    case h_2 p hp => exact .inr ⟨p, List.mem_of_find?_eq_some hp, h⟩

theorem notes_of_evaluateMapping {env : Environment} {b : Bindings} {m : KeyMap String} {n : Note}
    (h : n ∈ (evaluateMapping env b m).notes) : ∃ key kind, n = .evaluated key kind := by
  induction m with
  | nil => cases h
  | cons entry m ih =>
    obtain ⟨key, source⟩ := entry
    obtain h | ⟨_, -, h⟩ := mem_notes_bind_iff.mp h
    · obtain h | ⟨v, -, h⟩ := mem_notes_bind_iff.mp h
      · cases h
      obtain h | ⟨_, -, h⟩ := mem_notes_bind_iff.mp h
      · exact ⟨key, v.kind, List.mem_singleton.mp h⟩
      · cases h
    · obtain h | ⟨_, -, h⟩ := mem_notes_bind_iff.mp h
      · exact ih h
      · cases h

theorem eq_error_of_conditionError_mem {outcome : Except Expression.Stop Expression.Value}
    {e : Expression.Error} (h : .conditionError e ∈ (verdict outcome).notes) :
    outcome = .error (.error e) := by
  unfold verdict at h
  split at h
  case h_1 => cases h
  case h_2 =>
    obtain h | ⟨_, -, h⟩ := mem_notes_bind_iff.mp h
    · cases List.mem_singleton.mp h
    · cases h
  case h_3 =>
    obtain h | ⟨_, -, h⟩ := mem_notes_bind_iff.mp h
    · cases List.mem_singleton.mp h
      rfl
    · cases h
  case h_4 => cases h

/-- A failure that a condition leaves in the notes is one of its evaluation. -/
theorem evaluate_of_conditionError {l : Library} {condition : String} {b : Bindings} {d : Derived}
    {e : Expression.Error} (h : .conditionError e ∈ (acceptCondition l condition b d).notes) :
    ∃ v x, conditionBindings b d = .ok v ∧
      (conditionEnvironment l).evaluate x v = .error (.error e) := by
  unfold acceptCondition at h
  split_ifs at h
  · cases h
  obtain h | ⟨_, -, h⟩ := mem_notes_bind_iff.mp h
  · obtain h | ⟨v, hv, h⟩ := mem_notes_bind_iff.mp h
    · cases h
    obtain h | ⟨x, -, h⟩ := mem_notes_bind_iff.mp h
    · cases h
    exact ⟨v, x, mapError_eq_ok_iff.mp hv, eq_error_of_conditionError_mem h⟩
  · cases List.mem_singleton.mp h

/-- A note on the error of a condition comes from evaluating it over the variables that were made
for it. -/
theorem evaluate_of_conditionError_run {e : Expression.Error}
    (hs : ∀ p ∈ s.providers, .conditionError e ∉ (p.parse r.payload).notes)
    (h : .conditionError e ∈ (s.run r).notes) :
    ∃ b d v x, conditionBindings b d = .ok v ∧
      (conditionEnvironment s.library).evaluate x v = .error (.error e) := by
  obtain h | ⟨m, -, h⟩ := mem_notes_bind_iff.mp h
  · cases h
  obtain h | ⟨⟨p, b⟩, -, h⟩ := mem_notes_bind_iff.mp h
  · obtain h | ⟨p, hp, h⟩ := notes_of_resolve h
    · cases h
    · exact absurd h (hs p hp)
  obtain h | ⟨_, -, h⟩ := mem_notes_bind_iff.mp h
  · cases List.mem_singleton.mp h
  obtain h | ⟨_, -, h⟩ := mem_notes_bind_iff.mp h
  · cases h
  obtain h | ⟨d, -, h⟩ := mem_notes_bind_iff.mp h
  · obtain ⟨_, _, h⟩ := notes_of_evaluateMapping h
    cases h
  obtain h | ⟨_, -, h⟩ := mem_notes_bind_iff.mp h
  · cases List.mem_singleton.mp h
  obtain h | ⟨_, -, h⟩ := mem_notes_bind_iff.mp h
  · cases h
  obtain h | ⟨_, -, h⟩ := mem_notes_bind_iff.mp h
  · obtain ⟨v, x, hv, hx⟩ := evaluate_of_conditionError h
    exact ⟨b, d, v, x, hv, hx⟩
  · cases h

end

/-- What a built-in provider binds its declarations accept, whatever the library. So no environment
of a run refuses bindings, and where only tokens, claims and responses are read nothing is left that
a condition cannot nest. -/
theorem binds_builtin :
    (∀ p ∈ builtin, ∀ (l : Library) (payload : String) (b : Bindings),
      (p.parse payload).outcome = .ok b →
        Conforms p.declarations b ∧ ∃ scope, Environment.scope ⟨p.declarations, l⟩ b = .ok scope) ∧
    ∀ (s : Setting) (r : Request), (∀ p ∈ s.providers, p ∈ builtin) →
      (∀ target e, (s.run r).outcome ≠ .error (.error (.evaluate target (.bind e)))) ∧
      (∀ e, .conditionError (.bind e) ∉ (s.run r).notes) ∧
      ((∀ p ∈ s.providers, p ∈ [oidc, saml]) →
        ∀ name, (s.run r).outcome ≠ .error (.error (.environment name))) := by
  refine ⟨fun p hp l payload b h => ?conforms, fun s r hs => ⟨?evaluate, ?condition, ?nest⟩⟩
  case conforms =>
    have hc := Provider.conforms_of_builtin hp h
    exact ⟨hc, Environment.exists_scope_iff.mpr hc⟩
  case evaluate =>
    intro target e h
    obtain ⟨p, b, hp, ⟨m, h⟩ | ⟨d, -, h⟩⟩ := exists_resolves_of_isBinding h rfl
    · have hc := Provider.conforms_of_builtin (hs p hp.mem.1) hp.mem.2
      cases isBinding_of_evaluateMapping hc h
    · cases isGateError_of_conditionBindings h
  case condition =>
    intro e h
    have hnotes : ∀ p ∈ s.providers, .conditionError (.bind e) ∉ (p.parse r.payload).notes := by
      intro p hp h
      obtain ⟨d, h⟩ := Provider.notes_of_builtin (hs p hp) h
      cases h
    obtain ⟨b, d, v, x, hv, hx⟩ := evaluate_of_conditionError_run hnotes h
    exact Environment.evaluate_ne_bind (conforms_of_conditionBindings hv) x e hx
  case nest =>
    intro hstandard name h
    obtain ⟨p, b, hp, ⟨m, h⟩ | ⟨d, hd, h⟩⟩ := exists_resolves_of_isBinding h rfl
    · have hc := Provider.conforms_of_builtin (hs p hp.mem.1) hp.mem.2
      cases isBinding_of_evaluateMapping hc h
    · obtain ⟨members, rfl⟩ := Provider.isObject_of_standard (hstandard p hp.mem.1) hp.mem.2
      cases isBinding_of_conditionBindings hd h

/-- The condition asks for a claim that is not there: its evaluation fails, not its variables. -/
theorem binds_subjectRequest :
    (oidc.parse subjectRequest.payload).outcome =
      .ok (Provider.assertion (.object [("sub", .string "s")])) ∧
    (∃ scope, Environment.scope ⟨oidc.declarations, .standard⟩
      (Provider.assertion (.object [("sub", .string "s")])) = .ok scope) ∧
    (∀ p ∈ Setting.standard.providers, p ∈ builtin ∧ p ∈ [oidc, saml]) ∧
    (∀ e, .conditionError (.bind e) ∉
      (Setting.standard.run (subjectRequest.ask "assertion.none == 's'")).notes) ∧
    ∀ name, (Setting.standard.run (subjectRequest.ask "assertion.none == 's'")).outcome ≠
      .error (.error (.environment name)) := by
  obtain ⟨scopes, runs⟩ := binds_builtin
  have hparse : (oidc.parse subjectRequest.payload).outcome =
      .ok (Provider.assertion (.object [("sub", .string "s")])) := by cbv
  have hstandard : ∀ p ∈ Setting.standard.providers, p ∈ [oidc, saml] := fun _ hp => hp
  have hbuiltin : ∀ p ∈ Setting.standard.providers, p ∈ builtin :=
    fun p hp => Provider.mem_builtin_iff.mpr (.inl (hstandard p hp))
  obtain ⟨-, hnotes, henvironment⟩ := runs Setting.standard
    (subjectRequest.ask "assertion.none == 's'") hbuiltin
  exact ⟨hparse, (scopes oidc (hbuiltin oidc List.mem_cons_self) .standard _ _ hparse).2,
    fun p hp => ⟨hbuiltin p hp, hstandard p hp⟩, hnotes, henvironment hstandard⟩

end ClaimMapping.Mapping
