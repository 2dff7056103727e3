import ClaimMapping.Proofs.Mapping.Acceptance

namespace ClaimMapping.Mapping

open Attribute
open Expression (Bindings Library)
open Journal (bind_eq_ok_iff bind_eq_error_iff seq_eq_ok_iff mapError_eq_error_iff)

/-- The request with another condition. -/
def Request.ask (r : Request) (condition : String) : Request := { r with condition }

/-- Conditions that the checks of the sources let through. -/
structure IsAskable (condition : String) : Prop where
  length : condition.utf8ByteSize ≤ 4096
  time : ¬ MakesTimeOfNumber condition

/-- The errors of the condition: its variables cannot be bound, it is no expression, or it does not
give true. -/
inductive IsGateError : Error → Prop where
  | environment (variableName : String) : IsGateError (.environment variableName)
  | families (e : Provider.ParseError) : IsGateError (.parse "attribute" e)
  | compile (e : Expression.SyntaxError) : IsGateError (.compile .condition e)
  | rejected : IsGateError .conditionRejected

theorem isAskable_empty : IsAskable "" where
  length := Nat.zero_le _
  time := by
    rw [← makesTimeOfNumber_iff]
    decide

theorem checkTimes_concat {condition : String} (h : ¬ MakesTimeOfNumber condition)
    (sources : List String) : checkTimes (sources ++ [condition]) = checkTimes sources := by
  have hfalse : makesTimeOfNumber condition.toList = false := by
    rwa [← makesTimeOfNumber_iff, Bool.not_eq_true] at h
  rw [checkTimes, checkTimes, List.any_append, List.any_cons, hfalse]
  simp

/-- The checks of the sources do not tell askable conditions apart. -/
theorem checkSources_of_isAskable {condition : String} (h : IsAskable condition)
    (m : KeyMap String) : checkSources m condition = checkSources m "" := by
  have hlength : checkLength .condition condition conditionLimit = .ok () :=
    checkLength_eq_ok_iff.mpr h.length
  have hempty : checkLength .condition "" conditionLimit = .ok () :=
    checkLength_eq_ok_iff.mpr isAskable_empty.length
  rw [checkSources, checkSources, hlength, hempty, checkTimes_concat h.time,
    checkTimes_concat isAskable_empty.time]

/-- The bindings and the attributes, as they are when the condition is asked. -/
def Setting.derive (s : Setting) (r : Request) : Except Stop (Bindings × Derived) := do
  let m ← r.check.mapError .error
  let (p, b) ← (s.resolve r).outcome.mapError .error
  (checkSources m "").mapError .error
  let d ← (evaluateMapping ⟨p.declarations, s.library⟩ b m).outcome
  (checkDerived d).mapError .error
  return (b, d)

/-- A run derives its attributes first and asks the condition last. -/
theorem run_ask_eq (s : Setting) (r : Request) {condition : String} (h : IsAskable condition) :
    (s.run (r.ask condition)).outcome = s.derive r >>= fun (b, d) =>
      (acceptCondition s.library condition b d).outcome >>= fun () => .ok d := by
  have hcheck : (r.ask condition).check = r.check := rfl
  have hresolve : s.resolve (r.ask condition) = s.resolve r := rfl
  have hcondition : (r.ask condition).condition = condition := rfl
  rw [run_outcome, hcheck, hresolve, hcondition, Setting.derive]
  simp only [checkSources_of_isAskable h, bind_assoc]
  rfl

theorem isGateError_of_conditionBindings {b : Bindings} {d : Derived} {e : Error}
    (h : conditionBindings b d = .error e) : IsGateError e := by
  obtain h | ⟨nested, -, h⟩ := bind_eq_error_iff.mp h
  · obtain ⟨key, -, rfl⟩ := mapError_eq_error_iff.mp h
    exact .environment key
  · obtain ⟨e, -, rfl⟩ := mapError_eq_error_iff.mp h
    exact .families e

theorem isGateError_of_verdict {outcome : Except Expression.Stop Expression.Value} {e : Error}
    (h : (verdict outcome).outcome = .error (.error e)) : IsGateError e := by
  unfold verdict at h
  split at h
  case h_1 => cases h
  case h_2 =>
    cases h
    exact .rejected
  case h_3 =>
    cases h
    exact .rejected
  case h_4 => cases h

theorem isGateError_of_checkCondition {l : Library} {condition : String} {b : Bindings}
    {d : Derived} {e : Error} (h : (checkCondition l condition b d).outcome = .error (.error e)) :
    IsGateError e := by
  rw [checkCondition_outcome] at h
  obtain h | ⟨v, -, h⟩ := bind_eq_error_iff.mp h
  · obtain ⟨e, he, h⟩ := mapError_eq_error_iff.mp h
    cases h
    exact isGateError_of_conditionBindings he
  obtain h | ⟨x, -, h⟩ := bind_eq_error_iff.mp h
  · obtain ⟨failure, -, h⟩ := mapError_eq_error_iff.mp h
    cases failure with
    | mistake e =>
      cases h
      exact .compile e
    | crash => cases h
  · exact isGateError_of_verdict h

/-- A condition accepts, crashes, or refuses with an error of its own. -/
theorem acceptCondition_cases (l : Library) (condition : String) (b : Bindings) (d : Derived) :
    (acceptCondition l condition b d).outcome = .ok () ∨
      (acceptCondition l condition b d).outcome = .error .crash ∨
      ∃ e, IsGateError e ∧ (acceptCondition l condition b d).outcome = .error (.error e) := by
  by_cases h : condition = ""
  · exact .inl (acceptCondition_eq_ok_iff.mpr (.inl h))
  rw [acceptCondition_outcome h]
  cases ho : (checkCondition l condition b d).outcome with
  | ok => exact .inl rfl
  | error stop =>
    cases stop with
    | crash => exact .inr (.inl rfl)
    | error e => exact .inr (.inr ⟨e, isGateError_of_checkCondition ho, rfl⟩)

section

variable {s : Setting} {r : Request} {condition : String}

theorem derive_of_run_eq_ok (h : IsAskable condition) {d : Derived}
    (hrun : (s.run (r.ask condition)).outcome = .ok d) : ∃ b, s.derive r = .ok (b, d) := by
  rw [run_ask_eq s r h] at hrun
  obtain ⟨⟨b, d'⟩, hderive, hrun⟩ := bind_eq_ok_iff.mp hrun
  obtain ⟨-, hd⟩ := seq_eq_ok_iff.mp hrun
  cases hd
  exact ⟨b, hderive⟩

/-- The condition can hold attributes back, but not change them. -/
theorem run_of_derive_eq_ok (h : IsAskable condition) {b : Bindings} {d : Derived}
    (hderive : s.derive r = .ok (b, d)) :
    (s.run (r.ask condition)).outcome = .ok d ∨
      (s.run (r.ask condition)).outcome = .error .crash ∨
      ∃ e, IsGateError e ∧ (s.run (r.ask condition)).outcome = .error (.error e) := by
  rw [run_ask_eq s r h, hderive, Journal.ok_bind]
  dsimp only
  obtain ho | ho | ⟨e, he, ho⟩ := acceptCondition_cases s.library condition b d
  · rw [ho]
    exact .inl rfl
  · rw [ho]
    exact .inr (.inl rfl)
  · rw [ho]
    exact .inr (.inr ⟨e, he, rfl⟩)

theorem run_of_derive_eq_error (h : IsAskable condition) {stop : Stop}
    (hderive : s.derive r = .error stop) :
    (s.run (r.ask condition)).outcome = .error stop := by
  rw [run_ask_eq s r h, hderive]
  rfl

/-- An error that is none of the gate has come up before it. -/
theorem derive_of_run_eq_error (h : IsAskable condition) {e : Error} (he : ¬ IsGateError e)
    (hrun : (s.run (r.ask condition)).outcome = .error (.error e)) :
    s.derive r = .error (.error e) := by
  cases hderive : s.derive r with
  | error stop =>
    rw [run_of_derive_eq_error h hderive] at hrun
    cases hrun
    rfl
  | ok derived =>
    obtain ⟨b, d⟩ := derived
    obtain ho | ho | ⟨e', he', ho⟩ := run_of_derive_eq_ok h hderive
    · rw [ho] at hrun
      cases hrun
    · rw [ho] at hrun
      cases hrun
    · rw [ho] at hrun
      cases hrun
      exact absurd he' he

end

/-- Whatever two conditions ask, they let through the same attributes and leave every earlier
failure as it is. Where the run without a condition gives attributes, the run with one gives the
same or fails at the gate; where it fails, so does every other, with the same failure. -/
theorem run_ask (s : Setting) (r : Request) {c c' : String} (hc : IsAskable c)
    (hc' : IsAskable c') :
    (∀ d d', (s.run (r.ask c)).outcome = .ok d → (s.run (r.ask c')).outcome = .ok d' → d = d') ∧
    (∀ e, ¬ IsGateError e → (s.run (r.ask c)).outcome = .error (.error e) →
      (s.run (r.ask c')).outcome = .error (.error e)) ∧
    (∀ d, (s.run (r.ask "")).outcome = .ok d → (s.run (r.ask c)).outcome ≠ .error .crash →
      (s.run (r.ask c)).outcome = .ok d ∨
        ∃ e, IsGateError e ∧ (s.run (r.ask c)).outcome = .error (.error e)) ∧
    (∀ stop, (s.run (r.ask "")).outcome = .error stop →
      (s.run (r.ask c)).outcome = .error stop) := by
  refine ⟨?same, ?early, ?gate, ?fails⟩
  case same =>
    -- what is derived does not depend on the condition, so both have it from there
    intro d d' hd hd'
    obtain ⟨b, hderive⟩ := derive_of_run_eq_ok hc hd
    obtain ⟨b', hderive'⟩ := derive_of_run_eq_ok hc' hd'
    cases hderive.symm.trans hderive'
    rfl
  case early =>
    intro e he hrun
    exact run_of_derive_eq_error hc' (derive_of_run_eq_error hc he hrun)
  case gate =>
    intro d hd hcrash
    obtain ⟨b, hderive⟩ := derive_of_run_eq_ok isAskable_empty hd
    obtain ho | ho | ho := run_of_derive_eq_ok hc hderive
    · exact .inl ho
    · exact absurd ho hcrash
    · exact .inr ho
  case fails =>
    intro stop hstop
    cases hderive : s.derive r with
    | error stop' =>
      rw [run_of_derive_eq_error isAskable_empty hderive] at hstop
      cases hstop
      exact run_of_derive_eq_error hc hderive
    | ok derived =>
      obtain ⟨b, d⟩ := derived
      rw [run_ask_eq s r isAskable_empty, hderive] at hstop
      cases hstop

def subjectRequest : Request :=
  ⟨"\x7b\"sub\":\"s\"\x7d", some [("google.subject", "assertion.sub")], "", none⟩

/-- One condition asks the assertion, the other the attributes. -/
theorem run_subjectRequest :
    IsAskable "assertion.sub == 's'" ∧ IsAskable "size(google.subject) == 1" ∧
    (Setting.standard.run (subjectRequest.ask "assertion.sub == 's'")).outcome =
      .ok [("google.subject", .text "s")] ∧
    (∀ d, (Setting.standard.run (subjectRequest.ask "size(google.subject) == 1")).outcome = .ok d →
      d = [("google.subject", .text "s")]) := by
  have hassertion : IsAskable "assertion.sub == 's'" :=
    ⟨by decide, by
      rw [← makesTimeOfNumber_iff]
      decide +kernel⟩
  have hsize : IsAskable "size(google.subject) == 1" :=
    ⟨by decide, by
      rw [← makesTimeOfNumber_iff]
      decide +kernel⟩
  have hrun : (Setting.standard.run (subjectRequest.ask "assertion.sub == 's'")).outcome =
      .ok [("google.subject", .text "s")] := Journal.eq_ok_of_toOption (by decide +kernel)
  obtain ⟨same, -, -, -⟩ := run_ask Setting.standard subjectRequest hassertion hsize
  exact ⟨hassertion, hsize, hrun, fun d hd => (same _ d hrun hd).symm⟩

end ClaimMapping.Mapping
