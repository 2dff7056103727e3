import ClaimMapping.Proofs.Mapping.Resolution
import ClaimMapping.Proofs.Provider.Token

namespace ClaimMapping.Mapping

open Provider

theorem Request.check_of_payload_ne {r r' : Request} (hmapping : r'.mapping = r.mapping)
    (h : r.payload ≠ "") (h' : r'.payload ≠ "") : r'.check = r.check := by
  rw [check, check, if_neg h, if_neg h', hmapping]

/-- What the provider of tokens accepts is resolved to it, asked for by its name or not. -/
theorem resolve_oidc {r : Request} (hr : r.provider = none ∨ r.provider = some "oidc")
    {b : Expression.Bindings} (hb : (oidc.parse r.payload).outcome = .ok b)
    (library : Expression.Library) :
    (Setting.resolve ⟨Provider.Registry.standard, library⟩ r).outcome = .ok (oidc, b) := by
  rcases hr with hr | hr
  · have hsplit : Provider.Registry.standard = [] ++ oidc :: [Provider.saml] := rfl
    exact resolve_of_first hr hsplit (by simp) hb
  · have hnames : Provider.Registry.standard.names.Nodup := by decide
    have hpin : r = r.pin oidc.name := by
      rw [Request.pin, ← show r.provider = some oidc.name from hr]
    rw [hpin]
    exact resolve_pin hnames List.mem_cons_self hb

/-- Two payloads that are read as the same claims. -/
theorem run_congr_oidc (r r' : Request) (hr : r.provider = none ∨ r.provider = some "oidc")
    (hprovider : r'.provider = r.provider) (hmapping : r'.mapping = r.mapping)
    (hcondition : r'.condition = r.condition) (hne : r.payload ≠ "") (hne' : r'.payload ≠ "")
    {b : Expression.Bindings} (hb : (oidc.parse r.payload).outcome = .ok b)
    (hb' : (oidc.parse r'.payload).outcome = .ok b) (library : Expression.Library) :
    (Setting.run ⟨.standard, library⟩ r').outcome =
      (Setting.run ⟨.standard, library⟩ r).outcome := by
  have hr' : r'.provider = none ∨ r'.provider = some "oidc" := by rwa [hprovider]
  have hcheck : r'.check = r.check := Request.check_of_payload_ne hmapping hne hne'
  apply run_congr rfl hcondition hcheck
  rw [resolve_oidc hr hb, resolve_oidc hr' hb']

/-- A token that encodes claims runs as the claims themselves, which no run takes for a token. -/
theorem run_compact (library : Expression.Library) (r : Request)
    (hr : r.provider = none ∨ r.provider = some "oidc")
    {header claims signature before after : String} {fields members : KeyMap Json}
    {algorithm : String} (hclaims : Json.read? claims = some (.object members))
    (hheader : Json.read? header = some (.object fields))
    (halgorithm : KeyMap.get? fields "alg" = some (.string algorithm))
    (hsignature : '.' ∉ signature.toList)
    (hbefore : ∀ c ∈ before.toList, Text.isBlank c = true)
    (hafter : ∀ c ∈ after.toList, Text.isBlank c = true) :
    (Setting.run ⟨.standard, library⟩
      { r with payload := before ++ Oidc.compact header claims signature ++ after }).outcome =
        (Setting.run ⟨.standard, library⟩ { r with payload := claims }).outcome ∧
      ∃ d, Oidc.readToken claims = .error d := by
  have htoken := Oidc.parse_of_token
    (Oidc.readToken_compact hheader halgorithm hclaims hsignature hbefore hafter)
  have hobject := Oidc.parse_of_object hclaims
  have hne : claims ≠ "" := by
    intro hempty
    obtain ⟨space, rest, htext, -⟩ := Json.eq_space_append_brace_of_read? hclaims
    simp [hempty] at htext
  have hne' : before ++ Oidc.compact header claims signature ++ after ≠ "" := by
    intro hempty
    have hlist := congrArg String.toList hempty
    simp [Oidc.compact] at hlist
  have hrun := run_congr_oidc { r with payload := claims }
    { r with payload := before ++ Oidc.compact header claims signature ++ after } hr rfl rfl rfl
    hne hne' hobject htoken library
  exact ⟨hrun, Oidc.readToken_of_object hclaims⟩

def subjectOnly : Request :=
  ⟨"", some [("google.subject", "assertion.sub")], "assertion.sub != ''", some "oidc"⟩

/-- Claims with two points in them, and a token without a signature. -/
theorem run_unsignedToken :
    Json.read? "\x7b\"sub\":\"a.b.c\"\x7d" = some (.object [("sub", .string "a.b.c")]) ∧
    Json.read? "\x7b\"alg\":\"none\"\x7d" = some (.object [("alg", .string "none")]) ∧
    (Setting.run ⟨.standard, .standard⟩ { subjectOnly with
      payload := " \u00A0" ++ Oidc.compact "\x7b\"alg\":\"none\"\x7d"
        "\x7b\"sub\":\"a.b.c\"\x7d" "" ++ "\n" }).outcome =
      (Setting.run ⟨.standard, .standard⟩
        { subjectOnly with payload := "\x7b\"sub\":\"a.b.c\"\x7d" }).outcome ∧
    ∃ d, Oidc.readToken "\x7b\"sub\":\"a.b.c\"\x7d" = .error d := by
  have hclaims : Json.read? "\x7b\"sub\":\"a.b.c\"\x7d" =
      some (.object [("sub", .string "a.b.c")]) := by cbv
  have hheader : Json.read? "\x7b\"alg\":\"none\"\x7d" =
      some (.object [("alg", .string "none")]) := by cbv
  have halgorithm : KeyMap.get? [("alg", Json.string "none")] "alg" = some (.string "none") := by
    simp [KeyMap.get?]
  have hsignature : '.' ∉ "".toList := by simp
  have hblank : (∀ c ∈ " \u00A0".toList, Text.isBlank c = true) ∧
      ∀ c ∈ "\n".toList, Text.isBlank c = true := by simp [Text.isBlank]
  exact ⟨hclaims, hheader, run_compact .standard subjectOnly (.inr rfl) hclaims hheader
    halgorithm hsignature hblank.1 hblank.2⟩

end ClaimMapping.Mapping
