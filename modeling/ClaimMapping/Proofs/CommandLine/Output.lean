import ClaimMapping.Proofs.Attribute.Written
import ClaimMapping.Proofs.CommandLine.RequestFile
import ClaimMapping.Proofs.Mapping.Acceptance
import ClaimMapping.Proofs.Mapping.FirstFailure

namespace ClaimMapping.CommandLine

open Attribute (Derived)
open Mapping (Request Setting)

/-- The request of the arguments, when the options, the payload and the request file are read. -/
inductive Asks (s : Surroundings) (arguments : List String) : Request → Prop where
  | intro {o : Options} {payload : String} {file : RequestFile}
      (reads : Invocation.read arguments = .run o)
      (has_payload : s.payload? o.payload = some payload) (supplies : Supplies s o file) :
      Asks s arguments (file.combine o s.provider payload)

theorem asks_iff {s : Surroundings} {arguments : List String} {r : Request} :
    Asks s arguments r ↔ ∃ o, Invocation.read arguments = .run o ∧ s.request o = .ok r := by
  simp only [Surroundings.request_eq_ok_iff]
  constructor
  · intro h
    obtain ⟨reads, has_payload, supplies⟩ := h
    exact ⟨_, reads, _, _, has_payload, supplies, rfl⟩
  · intro h
    obtain ⟨o, reads, payload, file, has_payload, supplies, rfl⟩ := h
    exact .intro reads has_payload supplies

theorem Asks.ordered {s : Surroundings} {arguments : List String} {r : Request}
    (h : Asks s arguments r) : ∃ m, r.mapping = some m ∧ KeyMap.Ordered m := by
  obtain ⟨-, -, supplies⟩ := h
  exact ⟨_, rfl, supplies.ordered.insertAll _⟩

/-- What a run derives is ordered like the mapping that it goes through. -/
theorem ordered_of_run {s : Setting} {r : Request} {d : Derived}
    (hr : ∃ m, r.mapping = some m ∧ KeyMap.Ordered m) (h : (s.run r).outcome = .ok d) :
    KeyMap.Ordered d := by
  obtain ⟨m, hm, hordered⟩ := hr
  obtain ⟨m', p, b, haccepts⟩ := Mapping.exists_accepts_of_run h
  cases hm.symm.trans haccepts.mapping
  rw [KeyMap.Ordered, haccepts.derived.keys_eq]
  exact hordered

theorem run_of_asks {s : Surroundings} {arguments : List String} {r : Request}
    (h : Asks s arguments r) : run s arguments = .ofRun (Setting.standard.run r).outcome := by
  obtain ⟨o, reads, hr⟩ := asks_iff.mp h
  rw [run, reads]
  dsimp only
  rw [execute, hr]

/-- Every failure in front of a run exits with an error and prints nothing. -/
theorem Failure.outcome_fails (f : Failure) : f.outcome.exit ≠ 0 ∧ f.outcome.output = "" := by
  cases f <;> exact ⟨by simp [Failure.outcome], rfl⟩

/-- Without a request there is nothing to derive. -/
theorem run_of_not_asks {s : Surroundings} {arguments : List String}
    (hversion : Invocation.read arguments ≠ .version) (hhelp : Invocation.read arguments ≠ .help)
    (h : ∀ r, ¬ Asks s arguments r) :
    (run s arguments).exit ≠ 0 ∧ (run s arguments).output = "" := by
  unfold run
  cases hread : Invocation.read arguments with
  | version => exact absurd hread hversion
  | help => exact absurd hread hhelp
  | mistake => exact ⟨Nat.succ_ne_zero 1, rfl⟩
  | run o =>
    dsimp only
    cases hrequest : s.request o with
    | error f =>
      rw [execute, hrequest]
      exact f.outcome_fails
    | ok r => exact absurd (asks_iff.mpr ⟨o, hread, hrequest⟩) (h r)

theorem Outcome.ofRun_fails {stop : Mapping.Stop} :
    (Outcome.ofRun (.error stop)).exit ≠ 0 ∧ (Outcome.ofRun (.error stop)).output = "" := by
  cases stop with
  | error e => exact ⟨Nat.succ_ne_zero 0, rfl⟩
  | crash => exact ⟨Nat.succ_ne_zero 100, rfl⟩

/-- A run succeeds when it has a request and the request derives attributes. Then it prints one JSON
document, which is read back as these attributes; in every other case it prints nothing. -/
theorem run_prints {s : Surroundings} {arguments : List String}
    (hversion : Invocation.read arguments ≠ .version)
    (hhelp : Invocation.read arguments ≠ .help) :
    ((run s arguments).exit = 0 ↔
        ∃ r d, Asks s arguments r ∧ (Setting.standard.run r).outcome = .ok d) ∧
      (∀ r d, Asks s arguments r → (Setting.standard.run r).outcome = .ok d →
        (run s arguments).message = "" ∧
          ∃ j, Json.read? (run s arguments).output = some j ∧ Derived.ofJson? j = some d) ∧
      ((run s arguments).exit ≠ 0 → (run s arguments).output = "") := by
  have hprints (r : Request) (d : Derived) (hasks : Asks s arguments r)
      (hrun : (Setting.standard.run r).outcome = .ok d) :
      run s arguments = ⟨0, Json.indented d.toJson ++ "\n", ""⟩ := by
    rw [run_of_asks hasks, hrun]
    rfl
  by_cases h : ∃ r d, Asks s arguments r ∧ (Setting.standard.run r).outcome = .ok d
  · obtain ⟨r, d, hasks, hrun⟩ := h
    have hexit : (run s arguments).exit = 0 := by rw [hprints r d hasks hrun]
    refine ⟨iff_of_true hexit ⟨r, d, hasks, hrun⟩, fun r' d' hasks' hrun' => ?_, fun hne => ?_⟩
    · have hordered : KeyMap.Ordered d' := ordered_of_run hasks'.ordered hrun'
      rw [hprints r' d' hasks' hrun']
      exact ⟨rfl, d'.toJson, Derived.read?_indented hordered, Derived.ofJson?_toJson d'⟩
    · exact absurd hexit hne
  · have hfails : (run s arguments).exit ≠ 0 ∧ (run s arguments).output = "" := by
      by_cases hasks : ∃ r, Asks s arguments r
      · obtain ⟨r, hasks⟩ := hasks
        rw [run_of_asks hasks]
        cases hrun : (Setting.standard.run r).outcome with
        | ok d => exact absurd ⟨r, d, hasks, hrun⟩ h
        | error stop => exact Outcome.ofRun_fails
      · exact run_of_not_asks hversion hhelp (not_exists.mp hasks)
    exact ⟨iff_of_false hfails.1 h, fun r d hasks hrun => absurd ⟨r, d, hasks, hrun⟩ h,
      fun _ => hfails.2⟩

/-- Claims on the standard input, with a quote, a backslash and a control in the subject. -/
def quotedClaims : Surroundings :=
  ⟨"\x7b\"sub\":\"a\\\"\\\\\\u0001\",\"groups\":[\"\"]\x7d", fun _ => none, none⟩

def quotedArguments : List String :=
  ["-p", "-", "-mgoogle.subject=assertion.sub", "--mapping", "google.groups = assertion.groups"]

def quotedOptions : Options :=
  ⟨"-", none, none,
    [("google.subject", "assertion.sub"), ("google.groups", "assertion.groups")], none⟩

theorem run_prints_quoted :
    Invocation.read quotedArguments ≠ .version ∧ Invocation.read quotedArguments ≠ .help ∧
      (run quotedClaims quotedArguments).exit = 0 ∧
      ∃ j, Json.read? (run quotedClaims quotedArguments).output = some j ∧
        Derived.ofJson? j =
          some [("google.groups", .list [""]), ("google.subject", .text "a\"\\\x01")] := by
  have hread : Invocation.read quotedArguments = .run quotedOptions := by decide +kernel
  have hversion : Invocation.read quotedArguments ≠ .version := by
    rw [hread]
    exact Invocation.noConfusion
  have hhelp : Invocation.read quotedArguments ≠ .help := by
    rw [hread]
    exact Invocation.noConfusion
  have hasks : Asks quotedClaims quotedArguments
      (RequestFile.empty.combine quotedOptions none quotedClaims.input) := .intro hread rfl rfl
  have hrun : (Setting.standard.run
      (RequestFile.empty.combine quotedOptions none quotedClaims.input)).outcome =
        .ok [("google.groups", .list [""]), ("google.subject", .text "a\"\\\x01")] :=
    Journal.eq_ok_of_toOption (by decide +kernel)
  obtain ⟨hexit, hprints, -⟩ := run_prints hversion hhelp
  exact ⟨hversion, hhelp, hexit.mpr ⟨_, _, hasks, hrun⟩, (hprints _ _ hasks hrun).2⟩

end ClaimMapping.CommandLine
