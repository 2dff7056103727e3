import ClaimMapping.Proofs.Mapping.Requirement
import ClaimMapping.Proofs.Provider.Format

namespace ClaimMapping.Mapping

open Provider (Registry HoldsResponse oidc saml)

variable {payload : String} {p q : Provider} {r r' : Registry}

theorem registry_resolve_of_parse {b : Expression.Bindings}
    (h : (p.parse payload).outcome = .ok b) (r : Registry) :
    (Registry.resolve (p :: r) payload).outcome = .ok (p, b) := by
  rw [registry_resolve_cons, h]

theorem registry_resolve_of_not_accepts (h : ¬ p.Accepts payload) (r : Registry) :
    (Registry.resolve (p :: r) payload).outcome = (r.resolve payload).outcome := by
  obtain ⟨e, he⟩ := Provider.not_accepts_iff.mp h
  rw [registry_resolve_cons, he]

/-- Providers that do not accept a payload make no difference to what is resolved. -/
theorem registry_resolve_append {between : Registry} (h : ∀ p ∈ between, ¬ p.Accepts payload)
    (r : Registry) :
    (Registry.resolve (between ++ r) payload).outcome = (r.resolve payload).outcome := by
  induction between with
  | nil => rfl
  | cons p between ih =>
    obtain ⟨hp, hbetween⟩ := List.forall_mem_cons.mp h
    rw [List.cons_append, registry_resolve_of_not_accepts hp, ih hbetween]

theorem registry_resolve_congr (h : (r.resolve payload).outcome = (r'.resolve payload).outcome)
    (before : Registry) : (Registry.resolve (before ++ r) payload).outcome =
      (Registry.resolve (before ++ r') payload).outcome := by
  induction before with
  | nil => exact h
  | cons p before ih =>
    rw [List.cons_append, List.cons_append, registry_resolve_cons, registry_resolve_cons, ih]

/-- Two providers trade places. -/
theorem registry_resolve_swap (h : ¬ (p.Accepts payload ∧ q.Accepts payload))
    {between : Registry} (hbetween : ∀ p ∈ between, ¬ p.Accepts payload) (after : Registry) :
    (Registry.resolve (p :: (between ++ q :: after)) payload).outcome =
      (Registry.resolve (q :: (between ++ p :: after)) payload).outcome := by
  by_cases hp : p.Accepts payload
  · have hq : ¬ q.Accepts payload := fun hq => h ⟨hp, hq⟩
    obtain ⟨b, hb⟩ := hp
    rw [registry_resolve_of_not_accepts hq, registry_resolve_append hbetween,
      registry_resolve_of_parse hb, registry_resolve_of_parse hb]
  · rw [registry_resolve_of_not_accepts hp, registry_resolve_append hbetween]
    cases hq : (q.parse payload).outcome with
    | ok b => rw [registry_resolve_of_parse hq, registry_resolve_of_parse hq]
    | error e =>
      have hq' : ¬ q.Accepts payload := Provider.not_accepts_iff.mpr ⟨e, hq⟩
      rw [registry_resolve_of_not_accepts hq', registry_resolve_of_not_accepts hq',
        registry_resolve_append hbetween, registry_resolve_of_not_accepts hp]

/-- Unless it is claims that hold a response, no payload is in both formats, and it resolves to the
same provider with the same bindings whichever of the two comes first. -/
theorem resolve_oidc_saml (h : ¬ HoldsResponse payload) {between : Registry}
    (hbetween : ∀ p ∈ between, ¬ p.Accepts payload) (before after : Registry) :
    ¬ (oidc.Accepts payload ∧ saml.Accepts payload) ∧
      (Registry.resolve (before ++ oidc :: (between ++ saml :: after)) payload).outcome =
        (Registry.resolve (before ++ saml :: (between ++ oidc :: after)) payload).outcome := by
  have hboth : ¬ (oidc.Accepts payload ∧ saml.Accepts payload) := by
    intro hboth
    exact h (Provider.holdsResponse_of_accepts hboth.1 hboth.2)
  exact ⟨hboth, registry_resolve_congr (registry_resolve_swap hboth hbetween after) before⟩

/-- Claims with a less-than sign, which only one of the two providers accepts. -/
def shortClaims : String := "\x7b\"sub\":\"a < b\"\x7d"

theorem resolve_shortClaims :
    ¬ (oidc.Accepts shortClaims ∧ saml.Accepts shortClaims) ∧
      (Registry.resolve ([] ++ oidc :: ([] ++ [saml])) shortClaims).outcome =
        (Registry.resolve ([] ++ saml :: ([] ++ [oidc])) shortClaims).outcome := by
  have hshort : ¬ HoldsResponse shortClaims := fun h => absurd h.lt_length (by simp [shortClaims])
  have hbetween : ∀ p ∈ ([] : Registry), ¬ p.Accepts shortClaims := by simp
  exact resolve_oidc_saml hshort hbetween [] []

def response : String :=
  "<Response xmlns='urn:oasis:names:tc:SAML:2.0:protocol'><Assertion><Subject>" ++
    "<NameID>mallory</NameID></Subject></Assertion></Response>"

/-- The response in a claim. -/
def heldResponse : String := "\x7b\"sub\":\"" ++ response ++ "\"\x7d"

set_option maxRecDepth 4000 in
theorem read?_heldResponse :
    Json.read? heldResponse = some (.object [("sub", .string response)]) := by cbv

theorem read_heldResponse : Provider.Saml.read heldResponse = .ok ⟨"mallory", []⟩ := by cbv

theorem parse_heldResponse : (saml.parse heldResponse).outcome =
    .ok (Provider.assertion (Provider.Saml.Assertion.toJson ⟨"mallory", []⟩)) := by
  rw [Provider.Saml.parse_outcome, read_heldResponse]
  rfl

/-- A response in a claim is in both formats, and the order decides whose subject counts. -/
theorem resolve_heldResponse :
    (oidc.Accepts heldResponse ∧ saml.Accepts heldResponse) ∧
      (Registry.resolve [oidc, saml] heldResponse).outcome ≠
        (Registry.resolve [saml, oidc] heldResponse).outcome := by
  have hoidc : (oidc.parse heldResponse).outcome = _ :=
    Provider.Oidc.parse_of_object read?_heldResponse
  have hfirst := registry_resolve_of_parse hoidc [saml]
  have hsecond := registry_resolve_of_parse parse_heldResponse [oidc]
  refine ⟨⟨⟨_, hoidc⟩, ⟨_, parse_heldResponse⟩⟩, fun h => ?_⟩
  rw [hfirst, hsecond, Except.ok.injEq, Prod.mk.injEq] at h
  have hname : oidc.name = saml.name := congrArg Provider.name h.1
  exact absurd hname (by decide)

end ClaimMapping.Mapping
