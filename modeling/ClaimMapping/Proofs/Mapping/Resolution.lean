import ClaimMapping.Proofs.Mapping.Requirement
import ClaimMapping.Proofs.Provider.Registration

namespace ClaimMapping.Mapping

open Journal (ok_bind error_bind)

/-- Of its payload and of the registry a run knows only what they resolve to. -/
theorem run_congr {s s' : Setting} {r r' : Request} (hlibrary : s'.library = s.library)
    (hcondition : r'.condition = r.condition) (hcheck : r'.check = r.check)
    (hresolve : (s'.resolve r').outcome = (s.resolve r).outcome) :
    (s'.run r').outcome = (s.run r).outcome := by
  rw [run_outcome, run_outcome, hlibrary, hcondition, hcheck, hresolve]

/-- The request with a provider named. -/
def Request.pin (r : Request) (name : String) : Request := { r with provider := some name }

theorem Request.check_pin (r : Request) (name : String) : (r.pin name).check = r.check := rfl

/-- Without a name the first provider that accepts the payload is taken. -/
theorem resolve_of_first {s : Setting} {r : Request} (hr : r.provider = none)
    {before after : List Provider} {q : Provider} (hs : s.providers = before ++ q :: after)
    (hbefore : ∀ p ∈ before, ¬ p.Accepts r.payload) {b : Expression.Bindings}
    (hq : (q.parse r.payload).outcome = .ok b) : (s.resolve r).outcome = .ok (q, b) :=
  Setting.resolve_eq_ok_iff.mpr
    (.first before after hr hs (fun p hp => Provider.not_accepts_iff.mp (hbefore p hp)) hq)

theorem resolve_of_none_accepts {s : Setting} {r : Request} (hr : r.provider = none)
    (hs : ∀ p ∈ s.providers, ¬ p.Accepts r.payload) :
    (s.resolve r).outcome = .error .noProviderFound := by
  cases ho : (s.resolve r).outcome with
  | ok found =>
    obtain ⟨p, b⟩ := found
    have hresolves := Setting.resolve_eq_ok_iff.mp ho
    rcases hresolves with ⟨name, _, _, given, _⟩ | ⟨before, after, _, split, _, hp⟩
    · rw [hr] at given
      cases given
    · have hmem : p ∈ s.providers := by simp [split]
      exact absurd ⟨b, hp⟩ (hs p hmem)
  | error e =>
    rw [Setting.resolve_of_none hr, Journal.mapError_eq_error_iff] at ho
    obtain ⟨_, -, rfl⟩ := ho
    rfl

/-- The first provider that accepts a payload, when one does. -/
theorem exists_first_accepts {providers : List Provider} {payload : String}
    (h : ∃ p ∈ providers, p.Accepts payload) :
    ∃ before q after, providers = before ++ q :: after ∧ (∀ p ∈ before, ¬ p.Accepts payload) ∧
      q.Accepts payload := by
  classical
  have hs : (providers.find? fun p => p.Accepts payload).isSome = true := by
    simpa [List.find?_isSome] using h
  obtain ⟨q, hq⟩ := Option.isSome_iff_exists.mp hs
  obtain ⟨haccepts, before, after, hsplit, hbefore⟩ := List.find?_eq_some_iff_append.mp hq
  exact ⟨before, q, after, hsplit, fun p hp => by simpa using hbefore p hp, by simpa using haccepts⟩

/-- Providers of other names do not matter to a request with a name. -/
theorem resolve_pin_congr {s s' : Setting} {name : String}
    (h : s'.providers.find? name = s.providers.find? name) (r : Request) :
    (s'.resolve (r.pin name)).outcome = (s.resolve (r.pin name)).outcome := by
  rw [Setting.resolve_of_some rfl, Setting.resolve_of_some rfl, h]

theorem resolve_pin {s : Setting} (hs : s.providers.names.Nodup) {q : Provider}
    (hq : q ∈ s.providers) {r : Request} {b : Expression.Bindings}
    (hb : (q.parse r.payload).outcome = .ok b) :
    (s.resolve (r.pin q.name)).outcome = .ok (q, b) := by
  have hfind : s.providers.find? q.name = some q :=
    (Provider.Registry.find?_eq_some_iff_mem hs).mpr ⟨hq, rfl⟩
  have hparse : (q.parse (r.pin q.name).payload).outcome = .ok b := hb
  rw [Setting.resolve_of_some rfl, hfind]
  dsimp only
  rw [hparse]
  rfl

/-- What calls to register providers, one after the other, make of an empty registry. -/
def Setting.ofCalls (calls : List Provider) (library : Expression.Library) : Setting :=
  ⟨Provider.Registry.empty.afterCalls calls, library⟩

theorem Setting.nodup_names_ofCalls (calls : List Provider) (library : Expression.Library) :
    (ofCalls calls library).providers.names.Nodup :=
  Provider.Registry.nodup_names_afterCalls Provider.Registry.nodup_names_empty calls

/-- Later calls leave what was registered in front. -/
theorem Setting.prefix_ofCalls_append (calls later : List Provider)
    (library : Expression.Library) :
    (ofCalls calls library).providers <+: (ofCalls (calls ++ later) library).providers := by
  have happend : Provider.Registry.empty.afterCalls (calls ++ later) =
      (Provider.Registry.empty.afterCalls calls).afterCalls later := List.foldl_append
  change _ <+: Provider.Registry.empty.afterCalls (calls ++ later)
  rw [happend]
  exact Provider.Registry.prefix_afterCalls _ later

/-- In a registry that calls have built, a request without a name runs as if it named the first
provider that accepts its payload, and finds none when none does. Later calls leave the run of an
accepted payload as it is, and a run with a name depends on no provider of another name. -/
theorem run_ambient (calls later others : List Provider) (library : Expression.Library)
    (r : Request) (hr : r.provider = none) :
    let s := Setting.ofCalls calls library
    (∀ before q after, s.providers = before ++ q :: after →
      (∀ p ∈ before, ¬ p.Accepts r.payload) → q.Accepts r.payload →
        (s.run r).outcome = (s.run (r.pin q.name)).outcome) ∧
    ((∀ p ∈ s.providers, ¬ p.Accepts r.payload) →
      (s.run r).outcome =
        r.check.mapError .error >>= fun _ => .error (.error .noProviderFound)) ∧
    ((∃ p ∈ s.providers, p.Accepts r.payload) →
      ((Setting.ofCalls (calls ++ later) library).run r).outcome = (s.run r).outcome) ∧
    (∀ p ∈ s.providers, ((Setting.ofCalls (calls ++ later) library).run (r.pin p.name)).outcome =
      (s.run (r.pin p.name)).outcome) ∧
    (∀ name, (∀ p, p.name = name →
      (p ∈ (Setting.ofCalls others library).providers ↔ p ∈ s.providers)) →
        ((Setting.ofCalls others library).run (r.pin name)).outcome =
          (s.run (r.pin name)).outcome) := by
  intro s
  have hnames : s.providers.names.Nodup := Setting.nodup_names_ofCalls calls library
  have hfront := Setting.prefix_ofCalls_append calls later library
  refine ⟨?first, ?none, ?later, ?pinned, ?others⟩
  case first =>
    intro before q after hsplit hbefore hq
    obtain ⟨b, hb⟩ := hq
    have hmem : q ∈ s.providers := by simp [hsplit]
    have hresolve : (s.resolve r).outcome = (s.resolve (r.pin q.name)).outcome := by
      rw [resolve_of_first hr hsplit hbefore hb, resolve_pin hnames hmem hb]
    exact run_congr rfl rfl (Request.check_pin r q.name).symm hresolve
  case none =>
    intro h
    rw [run_outcome, resolve_of_none_accepts hr h]
    rfl
  case later =>
    intro h
    obtain ⟨before, q, after, hsplit, hbefore, b, hb⟩ := exists_first_accepts h
    obtain ⟨more, hmore⟩ := hfront
    have hsplit' : (Setting.ofCalls (calls ++ later) library).providers =
        before ++ q :: (after ++ more) := by
      rw [← hmore, hsplit, List.append_assoc, List.cons_append]
    have hresolve : ((Setting.ofCalls (calls ++ later) library).resolve r).outcome =
        (s.resolve r).outcome := by
      rw [resolve_of_first hr hsplit' hbefore hb, resolve_of_first hr hsplit hbefore hb]
    exact run_congr rfl rfl rfl hresolve
  case pinned =>
    intro p hp
    have hlater := Setting.nodup_names_ofCalls (calls ++ later) library
    have hfind : (Setting.ofCalls (calls ++ later) library).providers.find? p.name =
        s.providers.find? p.name := by
      rw [(Provider.Registry.find?_eq_some_iff_mem hlater).mpr ⟨hfront.subset hp, rfl⟩,
        (Provider.Registry.find?_eq_some_iff_mem hnames).mpr ⟨hp, rfl⟩]
    exact run_congr rfl rfl rfl (resolve_pin_congr hfind r)
  case others =>
    intro name h
    have hnames' := Setting.nodup_names_ofCalls others library
    have hfind := Provider.Registry.find?_congr hnames' hnames h
    exact run_congr rfl rfl rfl (resolve_pin_congr hfind r)

/-- Takes one payload, and tells who took it. -/
def onlyPayload (name accepted : String) : Provider where
  name := name
  declarations := [.dynamic Attribute.assertionName]
  parse payload :=
    if payload = accepted then .pure (Provider.assertion (.object [("by", .string name)]))
    else .refuse .notAnObject

theorem accepts_onlyPayload_iff {name accepted payload : String} :
    (onlyPayload name accepted).Accepts payload ↔ payload = accepted := by
  rw [Provider.Accepts, onlyPayload]
  by_cases h : payload = accepted <;> simp [h, Journal.Traced.pure]

/-- The third call is refused. -/
def fourCalls : List Provider :=
  [onlyPayload "other" "alone", onlyPayload "first" "shared", onlyPayload "first" "alone",
    onlyPayload "second" "shared"]

def sharedPayload : Request :=
  ⟨"shared", some [("google.subject", "assertion.by")], "", none⟩

/-- Two of the providers take the payload, and a later one as well. -/
theorem run_sharedPayload :
    let s := Setting.ofCalls fourCalls .standard
    sharedPayload.provider = none ∧
    s.providers = [onlyPayload "other" "alone", onlyPayload "first" "shared",
      onlyPayload "second" "shared"] ∧
    ¬ (onlyPayload "other" "alone").Accepts "shared" ∧
    (onlyPayload "first" "shared").Accepts "shared" ∧
    (s.run sharedPayload).outcome = (s.run (sharedPayload.pin "first")).outcome ∧
    ((Setting.ofCalls (fourCalls ++ [onlyPayload "third" "shared"]) .standard).run
      sharedPayload).outcome = (s.run sharedPayload).outcome := by
  intro s
  have hs : s.providers = [onlyPayload "other" "alone", onlyPayload "first" "shared",
      onlyPayload "second" "shared"] := by
    simp [s, fourCalls, Setting.ofCalls, Provider.Registry.afterCalls,
      Provider.Registry.afterCall, Provider.Registry.register, Provider.Registry.find?,
      Provider.Registry.empty, onlyPayload]
  have hother : ¬ (onlyPayload "other" "alone").Accepts "shared" := by
    simp [accepts_onlyPayload_iff]
  have hfirst : (onlyPayload "first" "shared").Accepts "shared" := accepts_onlyPayload_iff.mpr rfl
  obtain ⟨first, -, later, -, -⟩ :=
    run_ambient fourCalls [onlyPayload "third" "shared"] [] .standard sharedPayload rfl
  have hpinned := first [onlyPayload "other" "alone"] (onlyPayload "first" "shared")
    [onlyPayload "second" "shared"] hs (List.forall_mem_singleton.mpr hother) hfirst
  exact ⟨rfl, hs, hother, hfirst, hpinned, later ⟨_, by simp [s, hs], hfirst⟩⟩

end ClaimMapping.Mapping
