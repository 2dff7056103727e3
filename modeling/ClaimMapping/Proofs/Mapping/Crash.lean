import ClaimMapping.Proofs.Expression.Breaking
import ClaimMapping.Proofs.Expression.Reading
import ClaimMapping.Proofs.Mapping.ValueDecision
import ClaimMapping.Proofs.Provider.Declaration

namespace ClaimMapping.Mapping

open Attribute
open Expression (Bindings Breaks Environment Reaches Valueless)
open Journal (bind_eq_error_iff mapError_eq_ok_iff)

/-- A source whose reading or evaluation ends without a report. -/
inductive Aborts (env : Environment) (b : Bindings) (source : String) : Prop where
  | reading (h : Expression.read source = .error .crash)
  | evaluating {e : Expression.Expr} (hread : Expression.read source = .ok e)
    (h : env.evaluate e b = .error .crash)

/-- A run comes to its expressions, with this mapping, provider and bindings. -/
structure Prepares (s : Setting) (r : Request) (m : KeyMap String) (p : Provider) (b : Bindings) :
    Prop where
  check : r.check = .ok m
  resolved : Resolves s r p b
  sources : checkSources m r.condition = .ok ()

/-- A run comes to a source that aborts. -/
inductive Crashes (s : Setting) (r : Request) : Prop where
  | entry {before after : KeyMap String} {key source : String} {p : Provider} {b : Bindings}
    {d : Derived} (prepares : Prepares s r (before ++ (key, source) :: after) p b)
    (derived : DerivesAll ⟨p.declarations, s.library⟩ b before d)
    (aborts : Aborts ⟨p.declarations, s.library⟩ b source)
  | condition {m : KeyMap String} {p : Provider} {b v : Bindings} {d : Derived}
    (prepares : Prepares s r m p b) (derived : DerivesAll ⟨p.declarations, s.library⟩ b m d)
    (attributes : checkDerived d = .ok ()) (asked : r.condition ≠ "")
    (nested : conditionBindings b d = .ok v)
    (aborts : Aborts (conditionEnvironment s.library) v r.condition)

/-- A source ends the run without a report when it has a literal without a value, or when its
evaluation reaches a break. -/
theorem Aborts.cause {env : Environment} {b : Bindings} {source : String}
    (h : Aborts env b source) :
    (∃ t ∈ (Expression.lexemes source.toList).found, Valueless t.text) ∨
      ∃ e scope x t, Expression.read source = .ok e ∧ env.scope b = .ok scope ∧
        Reaches env.library x t e scope ∧ Breaks env.library x t := by
  cases h with
  | reading h => exact .inl (Expression.exists_valueless_of_read h)
  | @evaluating e hread h =>
    right
    rw [Environment.evaluate] at h
    cases hscope : env.scope b with
    | error defect =>
      rw [hscope] at h
      cases h
    | ok scope =>
      rw [hscope] at h
      obtain ⟨failure, heval, hf⟩ := Journal.mapError_eq_error_iff.mp h
      cases failure with
      | fault f => cases hf
      | crash =>
        obtain ⟨x, t, hreaches, hbreaks⟩ := Expression.exists_breaks_of_eval heval
        exact ⟨e, scope, x, t, hread, rfl, hreaches, hbreaks⟩

section

variable {α β : Type} {env : Environment} {b : Bindings}

/-- What a check refuses it reports. -/
theorem check_bind_eq_crash_iff {x : Except Error α} {f : α → Except Stop β} :
    x.mapError .error >>= f = .error .crash ↔ ∃ a, x = .ok a ∧ f a = .error .crash := by
  cases x with
  | error e => exact iff_of_false nofun nofun
  | ok a => simp [Except.mapError]

/-- The stages around an expression report what they refuse, so only the expression itself can abort
its entry. -/
theorem evaluateEntry_eq_crash_iff {key source : String} :
    (evaluateEntry env b key source).outcome = .error .crash ↔ Aborts env b source := by
  rw [evaluateEntry_outcome_eq]
  constructor
  · intro h
    cases hread : Expression.read source with
    | error failure =>
      cases failure with
      | mistake e =>
        rw [hread] at h
        cases h
      | crash => exact .reading hread
    | ok x =>
      rw [hread] at h
      dsimp only at h
      split at h
      case h_1 he => exact .evaluating hread he
      case h_2 => cases h
      case h_3 v _ =>
        obtain ⟨e, -, he⟩ := Journal.mapError_eq_error_iff.mp h
        cases he
  · intro h
    cases h with
    | reading h => rw [h]
    | evaluating hread h =>
      rw [hread]
      dsimp only
      rw [h]

theorem evaluateMapping_of_entry {before after : KeyMap String} {d : Derived}
    (hd : DerivesAll env b before d) {key source : String} {e : Stop}
    (h : (evaluateEntry env b key source).outcome = .error e) :
    (evaluateMapping env b (before ++ (key, source) :: after)).outcome = .error e := by
  induction hd with
  | nil =>
    rw [List.nil_append, evaluateMapping, Journal.Traced.bind_outcome, h]
    rfl
  | cons hderives _ ih =>
    rw [List.cons_append, evaluateMapping, Journal.Traced.bind_outcome,
      evaluateEntry_eq_ok_iff.mpr hderives.2, Journal.ok_bind, Journal.Traced.bind_outcome, ih]
    rfl

/-- A condition that ends without a report is not rejected: it ends the run so. -/
theorem verdict_eq_crash_iff {outcome : Except Expression.Stop Expression.Value} :
    (verdict outcome).outcome = .error .crash ↔ outcome = .error .crash := by
  unfold verdict
  split
  case h_4 => exact iff_of_true rfl rfl
  all_goals exact iff_of_false nofun nofun

/-- The condition aborts over the variables that are made for it, once all checks have passed. -/
theorem checkCondition_eq_crash_iff {l : Expression.Library} {condition : String} {d : Derived} :
    (checkCondition l condition b d).outcome = .error .crash ↔
      ∃ v, conditionBindings b d = .ok v ∧ Aborts (conditionEnvironment l) v condition := by
  rw [checkCondition_outcome, check_bind_eq_crash_iff]
  refine exists_congr fun v => and_congr_right fun _ => ?_
  rw [bind_eq_error_iff]
  simp only [mapError_eq_ok_iff, verdict_eq_crash_iff]
  constructor
  · intro h
    obtain h | ⟨e, hread, h⟩ := h
    · obtain ⟨failure, hread, hf⟩ := Journal.mapError_eq_error_iff.mp h
      cases failure with
      | mistake e => cases hf
      | crash => exact .reading hread
    · exact .evaluating hread h
  · intro h
    cases h with
    | reading h =>
      left
      rw [h]
      rfl
    | evaluating hread h => exact .inr ⟨_, hread, h⟩

end

section

variable {s : Setting} {r : Request}

theorem Prepares.run_outcome {m : KeyMap String} {p : Provider} {b : Bindings}
    (h : Prepares s r m p b) : (s.run r).outcome =
      (evaluateMapping ⟨p.declarations, s.library⟩ b m).outcome >>= fun d =>
        (checkDerived d).mapError .error >>= fun () =>
          (acceptCondition s.library r.condition b d).outcome >>= fun () => .ok d := by
  rw [Mapping.run_outcome, h.check, Setting.resolve_eq_ok_iff.mpr h.resolved]
  simp only [Except.mapError, Journal.ok_bind, h.sources]

/-- A run without a report has come to a source that aborts: one of the mapping, or the
condition. -/
theorem crashes_of_run (h : (s.run r).outcome = .error .crash) : Crashes s r := by
  rw [run_outcome] at h
  obtain ⟨m, hm, h⟩ := check_bind_eq_crash_iff.mp h
  obtain ⟨⟨p, b⟩, hp, h⟩ := check_bind_eq_crash_iff.mp h
  obtain ⟨⟨⟩, hs, h⟩ := check_bind_eq_crash_iff.mp h
  have hprepares : Prepares s r m p b := ⟨hm, Setting.resolve_eq_ok_iff.mp hp, hs⟩
  obtain h | ⟨d, hd, h⟩ := bind_eq_error_iff.mp h
  · obtain ⟨before, key, source, after, d, rfl, hd, h⟩ := evaluateMapping_eq_error h
    exact .entry hprepares hd (evaluateEntry_eq_crash_iff.mp h)
  obtain ⟨⟨⟩, hc, h⟩ := check_bind_eq_crash_iff.mp h
  obtain h | ⟨⟨⟩, -, h⟩ := bind_eq_error_iff.mp h
  · have hasked : r.condition ≠ "" := by
      intro hempty
      rw [acceptCondition, if_pos hempty] at h
      cases h
    rw [acceptCondition_outcome hasked] at h
    obtain ⟨v, hv, ha⟩ := checkCondition_eq_crash_iff.mp h
    exact .condition hprepares (evaluateMapping_eq_ok_iff.mp hd) hc hasked hv ha
  · cases h

theorem Crashes.run (h : Crashes s r) : (s.run r).outcome = .error .crash := by
  cases h with
  | entry hprepares hd ha =>
    rw [hprepares.run_outcome, evaluateMapping_of_entry hd (evaluateEntry_eq_crash_iff.mpr ha)]
    rfl
  | condition hprepares hd hc hasked hv ha =>
    rw [hprepares.run_outcome, evaluateMapping_eq_ok_iff.mpr hd, Journal.ok_bind]
    refine check_bind_eq_crash_iff.mpr ⟨(), hc, ?_⟩
    rw [acceptCondition_outcome hasked, checkCondition_eq_crash_iff.mpr ⟨_, hv, ha⟩]
    rfl

end

/-- A run gives attributes or an error exactly when it does not come to a source that aborts. Such a
source holds a number out of range or a bad escape, or else its evaluation reaches a break, and at
every break an evaluation ends without a report. Times and durations have no bounds here, so the
overflow of the engine's types for them is not among the breaks. -/
theorem run_returns_iff (s : Setting) (r : Request) :
    (((∃ d, (s.run r).outcome = .ok d) ∨ ∃ e, (s.run r).outcome = .error (.error e)) ↔
      ¬ Crashes s r) ∧
    (∀ env b source, Aborts env b source →
      (∃ t ∈ (Expression.lexemes source.toList).found, Valueless t.text) ∨
        ∃ e scope x t, Expression.read source = .ok e ∧ env.scope b = .ok scope ∧
          Reaches env.library x t e scope ∧ Breaks env.library x t) ∧
    ∀ l x t, Breaks l x t → Expression.eval l x t = .error .crash := by
  refine ⟨?_, fun _ _ _ h => h.cause, fun _ _ _ h => h.eval⟩
  constructor
  · intro h hcrash
    rw [hcrash.run] at h
    obtain ⟨d, h⟩ | ⟨e, h⟩ := h <;> cases h
  · intro hcrash
    cases h : (s.run r).outcome with
    | ok d => exact .inl ⟨d, rfl⟩
    | error stop =>
      cases stop with
      | crash => exact absurd (crashes_of_run h) hcrash
      | error e => exact .inr ⟨e, rfl⟩

def hasCrashed {α : Type} : Except Stop α → Bool
  | .error .crash => true
  | _ => false

theorem eq_crash_of_hasCrashed {α : Type} {x : Except Stop α} (h : hasCrashed x = true) :
    x = .error .crash := by
  unfold hasCrashed at h
  split at h
  · rfl
  · cases h

/-- The condition divides by a claim, and the claim is zero. -/
def divisorClaim : Request :=
  ⟨"\x7b\"n\":0,\"sub\":\"s\"\x7d", some [("google.subject", "assertion.sub")],
    "10u / assertion.n == 5u", none⟩

/-- A payload alone can end the run of a trusted mapping and condition. -/
theorem run_divisorClaim :
    (∀ p ∈ Setting.standard.providers, p ∈ Provider.builtin) ∧
      (Setting.standard.run divisorClaim).outcome = .error .crash :=
  ⟨fun _ hp => Provider.mem_builtin_iff.mpr (.inl hp), eq_crash_of_hasCrashed (by decide +kernel)⟩

end ClaimMapping.Mapping
