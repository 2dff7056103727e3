import ClaimMapping.Mapping.Run
import ClaimMapping.Proofs.Attribute.Nesting
import ClaimMapping.Proofs.Expression.Variables
import ClaimMapping.Proofs.Json.RoundTrip

namespace ClaimMapping.Mapping

open Attribute
open Expression (Declaration Environment Library Scope reads)
open Json (WellFormed depth reals Returns)

/-- The object of the variables nests one deeper than the assertion in it. -/
theorem depth_bundle_le_iff {assertion : KeyMap Json} {d : Derived}
    {custom reserved : KeyMap Json} (hcustom : IsFamilyOf customFamily d custom)
    (hreserved : IsFamilyOf reservedFamily d reserved) :
    depth (.object (bundle (.object assertion) custom reserved)) ≤ Json.maxDepth ↔
      depth (.object assertion) ≤ 126 := by
  have hc : depth (.object custom) ≤ 126 := hcustom.depth_le.trans (by decide)
  have hr : depth (.object reserved) ≤ 126 := hreserved.depth_le.trans (by decide)
  have hmembers : Json.membersDepth (bundle (.object assertion) custom reserved) ≤ 126 ↔
      depth (.object assertion) ≤ 126 := by
    rw [Json.membersDepth_le_iff]
    constructor
    · intro h
      exact h (assertionName, .object assertion) (mem_bundle_iff.mpr (.inl rfl))
    · intro h e he
      obtain rfl | rfl | rfl := mem_bundle_iff.mp he
      · exact h
      · exact hc
      · exact hr
  rw [← hmembers, depth, Json.maxDepth]
  omega

/-- The families are read again as they were. -/
theorem reread_of_isFamilyOf {family : String} {d : Derived} {members : KeyMap Json}
    (h : IsFamilyOf family d members) : Json.reread (.object members) = .object members :=
  Json.reread_of_returns _ fun x hx => absurd hx (h.not_mem_reals x)

/-- The values of the three variables, written and read again: with the variables around it the
assertion stands one level deeper than by itself. -/
theorem read_compact_bundle {assertion : KeyMap Json} (hw : WellFormed (.object assertion))
    {d : Derived} {custom reserved : KeyMap Json} (hcustom : IsFamilyOf customFamily d custom)
    (hreserved : IsFamilyOf reservedFamily d reserved) :
    Provider.Condition.read (Json.compact (.object (bundle (.object assertion) custom reserved))) =
      if depth (.object assertion) ≤ 126 then
        .ok (bundle (Json.reread (.object assertion)) custom reserved)
      else .error .json := by
  have hwhole : WellFormed (.object (bundle (.object assertion) custom reserved)) := by
    refine .object (ordered_bundle _ _ _) fun e he => ?_
    obtain rfl | rfl | rfl := mem_bundle_iff.mp he
    · exact hw
    · exact hcustom.wellFormed
    · exact hreserved.wellFormed
  have hreread : Json.reread (.object (bundle (.object assertion) custom reserved)) =
      .object (bundle (Json.reread (.object assertion)) custom reserved) := by
    rw [Json.reread, Json.rereadMembers_eq_mapValues]
    simp only [bundle, KeyMap.mapValues, List.map_cons, List.map_nil, reread_of_isFamilyOf hcustom,
      reread_of_isFamilyOf hreserved]
  rw [Provider.Condition.read, Json.read?_compact hwhole, hreread]
  simp only [depth_bundle_le_iff hcustom hreserved]
  split_ifs <;> rfl

/-- Over an assertion the condition has its variables exactly when the assertion leaves one level
of nesting free. -/
theorem conditionBindings_eq {assertion : KeyMap Json} (hw : WellFormed (.object assertion))
    {d : Derived} (hd : KeyMap.Ordered d) (hk : ∀ key ∈ KeyMap.keys d, InFamily key) :
    ∃ custom reserved, IsFamilyOf customFamily d custom ∧ IsFamilyOf reservedFamily d reserved ∧
      conditionBindings (Provider.assertion (.object assertion)) d =
        if depth (.object assertion) ≤ 126 then
          .ok (bundle (Json.reread (.object assertion)) custom reserved)
        else .error (.parse Provider.condition.name .json) := by
  obtain ⟨custom, reserved, hnest, hcustom, hreserved⟩ := nest_overlay hd hk assertion
  refine ⟨custom, reserved, hcustom, hreserved, ?_⟩
  rw [conditionBindings, Provider.assertion, hnest, Except.mapError, Journal.ok_bind,
    read_compact_bundle hw hcustom hreserved]
  split_ifs <;> rfl

/-- A condition sees the assertion as it was, and the derived attributes by their families. -/
theorem scope_conditionEnvironment (l : Library) (assertion : Json)
    (custom reserved : KeyMap Json) :
    (conditionEnvironment l).scope (bundle assertion custom reserved) =
      .ok [(assertionName, .ofJson assertion), (reservedFamily, .ofJson (.object reserved)),
        (customFamily, .ofJson (.object custom))] := rfl

/-- What reads no variable but the assertion has the same value in a condition and in a mapping. -/
theorem evaluate_conditionEnvironment {env : Environment}
    (henv : ∃ decl ∈ env.declarations, decl.name = assertionName) (assertion : KeyMap Json)
    (custom reserved : KeyMap Json) {e : Expression.Expr}
    (he : ∀ x ∈ reads env.library e, x = assertionName) :
    (conditionEnvironment env.library).evaluate e
        (bundle (.object assertion) custom reserved) =
      env.evaluate e (Provider.assertion (.object assertion)) := by
  obtain ⟨scope, hscope, hlookup⟩ := Environment.lookup_scope_object henv assertion
  rw [Environment.evaluate, Environment.evaluate, scope_conditionEnvironment, Provider.assertion,
    hscope]
  dsimp only
  rw [conditionEnvironment, Expression.eval_congr env.library e]
  intro x hx
  rw [he x hx, hlookup, List.lookup_cons_self]

/-- Over an assertion that nests at most 126 deep a condition has three variables: the assertion as
it was, and in each family the attributes of its own keys. Nothing of the assertion gets into a
family, so that an expression which reads only the assertion cannot tell a condition from a
mapping. -/
theorem conditionBindings_assertion {assertion : KeyMap Json} (hw : WellFormed (.object assertion))
    (hdepth : depth (.object assertion) ≤ 126) (hr : ∀ x ∈ reals (.object assertion), Returns x)
    {d : Derived} (hd : KeyMap.Ordered d) (hk : ∀ key ∈ KeyMap.keys d, (Key.read? key).isSome) :
    ∃ custom reserved, conditionBindings (Provider.assertion (.object assertion)) d =
        .ok [("assertion", .object assertion), ("attribute", .object custom),
          ("google", .object reserved)] ∧
      IsFamilyOf "attribute" d custom ∧ IsFamilyOf "google" d reserved ∧
      ∀ (env : Environment) (e : Expression.Expr),
        (∃ decl ∈ env.declarations, decl.name = "assertion") →
        (∀ x ∈ reads env.library e, x = "assertion") →
        (conditionEnvironment env.library).evaluate e
            [("assertion", .object assertion), ("attribute", .object custom),
              ("google", .object reserved)] =
          env.evaluate e (Provider.assertion (.object assertion)) := by
  obtain ⟨custom, reserved, hcustom, hreserved, hbindings⟩ :=
    conditionBindings_eq hw hd fun key hkey => inFamily_of_read? (hk key hkey)
  refine ⟨custom, reserved, ?_, hcustom, hreserved, fun env e henv he => ?_⟩
  · rw [hbindings, if_pos hdepth, Json.reread_of_returns _ hr]
    rfl
  · exact evaluate_conditionEnvironment henv assertion custom reserved he

/-- Quotes and controls, a number below zero, and arrays inside one another. -/
def nestedClaims : KeyMap Json :=
  [("aud", .array [.array [.string "a"], .null]), ("iat", .number (.negative (-5))),
    ("sub", .string "q\"\\\n\x01é")]

def dottedAttributes : Derived :=
  [("attribute.a.b", .text "x"), ("google.groups", .list ["g", "h"]), ("google.subject", .text "s")]

theorem conditionBindings_nestedClaims :
    ∃ custom reserved,
      conditionBindings (Provider.assertion (.object nestedClaims)) dottedAttributes =
        .ok [("assertion", .object nestedClaims), ("attribute", .object custom),
          ("google", .object reserved)] ∧
      KeyMap.get? custom "a.b" = some (.string "x") ∧ KeyMap.get? custom "sub" = none ∧
      KeyMap.get? reserved "groups" = some (.array [.string "g", .string "h"]) ∧
      (conditionEnvironment .standard).evaluate (.member (.name "assertion") "sub")
          [("assertion", .object nestedClaims), ("attribute", .object custom),
            ("google", .object reserved)] = .ok (.string "q\"\\\n\x01é") := by
  have hkeys : ["aud", "iat", "sub"].Pairwise (· < ·) := by decide
  have haud : WellFormed (.array [.array [.string "a"], .null]) :=
    .array (List.forall_mem_cons.mpr
      ⟨Json.wellFormed_strings ["a"], List.forall_mem_singleton.mpr .null⟩)
  have hw : WellFormed (.object nestedClaims) :=
    .object hkeys (List.forall_mem_cons.mpr ⟨haud, List.forall_mem_cons.mpr
      ⟨.negative (by decide), List.forall_mem_singleton.mpr (.string _)⟩⟩)
  have hreals : reals (.object nestedClaims) = [] := rfl
  have hr : ∀ x ∈ reals (.object nestedClaims), Returns x := by
    rw [hreals]
    exact fun x hx => absurd hx List.not_mem_nil
  have hdepth : depth (.object nestedClaims) ≤ 126 := by decide
  have ho : KeyMap.Ordered dottedAttributes := by
    unfold KeyMap.Ordered
    decide
  have hk : ∀ key ∈ KeyMap.keys dottedAttributes, (Key.read? key).isSome := by decide
  obtain ⟨custom, reserved, h, hcustom, hreserved, he⟩ :=
    conditionBindings_assertion hw hdepth hr ho hk
  refine ⟨custom, reserved, h, hcustom.get?_eq "a.b", hcustom.get?_eq "sub",
    hreserved.get?_eq "groups", ?_⟩
  exact he ⟨Provider.oidc.declarations, .standard⟩ _ ⟨_, List.mem_cons_self, rfl⟩ (by decide)

end ClaimMapping.Mapping
