import ClaimMapping.Proofs.Mapping.ClaimEncoding
import ClaimMapping.Proofs.Mapping.ConditionVariables
import ClaimMapping.Proofs.Mapping.FirstFailure
import ClaimMapping.Proofs.Mapping.Gate
import ClaimMapping.Proofs.Provider.Assertion

namespace ClaimMapping.Mapping

open Attribute
open Expression (Bindings Library)
open Journal (bind_eq_ok_iff seq_eq_ok_iff mapError_eq_ok_iff)
open Json (WellFormed depth)

/-- A condition whose value is true in every scope. -/
def IsTrivial (l : Library) (condition : String) : Prop :=
  ∃ e, Expression.read condition = .ok e ∧ ∀ scope, Expression.eval l e scope = .ok (.bool true)

theorem isTrivial_true (l : Library) : IsTrivial l "true" :=
  ⟨.literal (.bool true), by rfl, fun _ => rfl⟩

theorem isAskable_true : IsAskable "true" where
  length := by decide
  time := by
    rw [← makesTimeOfNumber_iff]
    decide

theorem IsTrivial.ne_empty {l : Library} {condition : String} (h : IsTrivial l condition) :
    condition ≠ "" := by
  rintro rfl
  obtain ⟨e, hread, -⟩ := h
  cases hread

/-- Both providers bind an object; only that of a token or of claims can use all levels. -/
theorem exists_members_of_resolve {l : Library} {r : Request} {p : Provider} {b : Bindings}
    (h : (Setting.resolve ⟨.standard, l⟩ r).outcome = .ok (p, b)) :
    ∃ members, b = Provider.assertion (.object members) ∧ WellFormed (.object members) ∧
      depth (.object members) ≤ 127 ∧ (p = Provider.saml → depth (.object members) ≤ 3) := by
  obtain ⟨hp, hb⟩ := (Setting.resolve_eq_ok_iff.mp h).mem
  obtain rfl | hp := List.mem_cons.mp hp
  · obtain ⟨members, hb, hw, hdepth⟩ := Provider.Oidc.isAssertion_of_parse hb
    have hne : Provider.oidc ≠ Provider.saml := by
      intro heq
      have hname : "oidc" = "saml" := congrArg Provider.name heq
      exact absurd hname (by decide)
    exact ⟨members, hb, hw, hdepth, fun heq => absurd heq hne⟩
  · obtain rfl := List.mem_singleton.mp hp
    obtain ⟨members, hb, hw, hdepth⟩ := Provider.Saml.isAssertion_of_parse hb
    exact ⟨members, hb, hw, hdepth.trans (by decide), fun _ => hdepth⟩

theorem of_derive_eq_ok {s : Setting} {r : Request} {b : Bindings} {d : Derived}
    (h : s.derive r = .ok (b, d)) :
    ∃ m p, r.check = .ok m ∧ (s.resolve r).outcome = .ok (p, b) ∧
      DerivesAll ⟨p.declarations, s.library⟩ b m d := by
  obtain ⟨m, hcheck, h⟩ := bind_eq_ok_iff.mp h
  obtain ⟨⟨p, b'⟩, hresolve, h⟩ := bind_eq_ok_iff.mp h
  obtain ⟨-, h⟩ := seq_eq_ok_iff.mp h
  obtain ⟨d', hderives, h⟩ := bind_eq_ok_iff.mp h
  obtain ⟨-, h⟩ := seq_eq_ok_iff.mp h
  cases h
  exact ⟨m, p, mapError_eq_ok_iff.mp hcheck, mapError_eq_ok_iff.mp hresolve,
    evaluateMapping_eq_ok_iff.mp hderives⟩

/-- Asking a condition that is true of everything costs a level of nesting: the assertion is written
and read again inside the object of the variables. -/
theorem acceptCondition_of_isTrivial {l : Library} {condition : String}
    (h : IsTrivial l condition) {assertion : KeyMap Json} (hw : WellFormed (.object assertion))
    {d : Derived} (hd : KeyMap.Ordered d) (hk : ∀ key ∈ KeyMap.keys d, InFamily key) :
    (acceptCondition l condition (Provider.assertion (.object assertion)) d).outcome =
      if depth (.object assertion) ≤ 126 then .ok ()
      else .error (.error (.parse "attribute" .json)) := by
  obtain ⟨custom, reserved, -, -, hbindings⟩ := conditionBindings_eq hw hd hk
  have hne := h.ne_empty
  obtain ⟨e, hread, htrue⟩ := h
  rw [acceptCondition_outcome hne, checkCondition_outcome, hbindings, hread]
  by_cases hdepth : depth (.object assertion) ≤ 126
  · have hvalue : (conditionEnvironment l).evaluate e
        (bundle (Json.reread (.object assertion)) custom reserved) = .ok (.bool true) := by
      rw [Expression.Environment.evaluate, scope_conditionEnvironment, conditionEnvironment]
      dsimp only
      rw [htrue]
      rfl
    rw [if_pos hdepth, if_pos hdepth]
    change (verdict ((conditionEnvironment l).evaluate e
      (bundle (Json.reread (.object assertion)) custom reserved))).outcome = .ok ()
    rw [hvalue]
    rfl
  · rw [if_neg hdepth, if_neg hdepth]
    rfl

/-- Where the run without a condition gives attributes, the run with a trivial one gives the same if
the assertion nests at most 126 deep, and otherwise fails on the variables of the condition. -/
theorem run_of_isTrivial {l : Library} {r : Request}
    (hr : ∀ m, r.mapping = some m → KeyMap.Ordered m) {condition : String}
    (hc : IsAskable condition) (ht : IsTrivial l condition) {d : Derived}
    (h : (Setting.run ⟨.standard, l⟩ (r.ask "")).outcome = .ok d) :
    ∃ p members, (Setting.resolve ⟨.standard, l⟩ r).outcome =
        .ok (p, Provider.assertion (.object members)) ∧
      depth (.object members) ≤ 127 ∧ (p = Provider.saml → depth (.object members) ≤ 3) ∧
      (Setting.run ⟨.standard, l⟩ (r.ask condition)).outcome =
        if depth (.object members) ≤ 126 then .ok d
        else .error (.error (.parse "attribute" .json)) := by
  obtain ⟨b, hderive⟩ := derive_of_run_eq_ok isAskable_empty h
  obtain ⟨m, p, hcheck, hresolve, hderives⟩ := of_derive_eq_ok hderive
  obtain ⟨-, hmapping, -, hkeys⟩ := Request.check_eq_ok_iff.mp hcheck
  -- The attributes have the keys of the mapping, all of them in a family.
  have hd : KeyMap.Ordered d := by
    rw [KeyMap.Ordered, hderives.keys_eq]
    exact hr m hmapping
  have hk : ∀ key ∈ KeyMap.keys d, InFamily key := by
    intro key hkey
    rw [hderives.keys_eq] at hkey
    exact (hkeys key hkey).inFamily
  obtain ⟨members, rfl, hw, hdepth, hsaml⟩ := exists_members_of_resolve hresolve
  refine ⟨p, members, hresolve, hdepth, hsaml, ?_⟩
  rw [run_ask_eq _ _ hc, hderive, Journal.ok_bind]
  dsimp only
  rw [acceptCondition_of_isTrivial ht hw hd hk]
  split_ifs <;> rfl

/-- The condition `true` is neutral over every assertion that leaves one level of nesting free. Over
a deeper one, which only claims can be, it turns attributes into a failure. -/
theorem run_true (l : Library) (r : Request) (hr : ∀ m, r.mapping = some m → KeyMap.Ordered m)
    {d : Derived} (h : (Setting.run ⟨.standard, l⟩ (r.ask "")).outcome = .ok d) :
    ∃ p members, (Setting.resolve ⟨.standard, l⟩ r).outcome =
        .ok (p, Provider.assertion (.object members)) ∧
      depth (.object members) ≤ 127 ∧ (p = Provider.saml → depth (.object members) ≤ 3) ∧
      (Setting.run ⟨.standard, l⟩ (r.ask "true")).outcome =
        if depth (.object members) ≤ 126 then .ok d
        else .error (.error (.parse "attribute" .json)) :=
  run_of_isTrivial hr isAskable_true (isTrivial_true l) h

/-- Arrays inside one another, `n` of them around an empty one. -/
def nestedArray : Nat → Json
  | 0 => .array []
  | n + 1 => .array [nestedArray n]

/-- Claims that nest as deep as a reader may allow. -/
def deepClaims (n : Nat) : KeyMap Json := [("levels", nestedArray n), ("sub", .string "s")]

def deepRequest (n : Nat) : Request :=
  ⟨Json.compact (.object (deepClaims n)), some [("google.subject", "assertion.sub")], "", none⟩

theorem depth_nestedArray (n : Nat) : depth (nestedArray n) = n + 1 := by
  induction n with
  | zero => rfl
  | succ n ih =>
    rw [nestedArray, depth, Json.itemsDepth, Json.itemsDepth, ih, Nat.max_zero]

theorem wellFormed_nestedArray (n : Nat) : WellFormed (nestedArray n) := by
  induction n with
  | zero => exact .array fun j hj => absurd hj List.not_mem_nil
  | succ n ih => exact .array (List.forall_mem_singleton.mpr ih)

theorem reread_nestedArray (n : Nat) : Json.reread (nestedArray n) = nestedArray n := by
  induction n with
  | zero => rfl
  | succ n ih =>
    rw [nestedArray, Json.reread, Json.rereadItems, Json.rereadItems, ih]

theorem depth_deepClaims (n : Nat) : depth (.object (deepClaims n)) = n + 2 := by
  have hsub : depth (.string "s") = 0 := rfl
  rw [deepClaims, depth, Json.membersDepth, Json.membersDepth, Json.membersDepth, depth_nestedArray,
    hsub]
  simp

theorem read?_deepRequest {n : Nat} (hn : n ≤ 125) :
    Json.read? (deepRequest n).payload = some (.object (deepClaims n)) := by
  have hkeys : ["levels", "sub"].Pairwise (· < ·) := by decide
  have hw : WellFormed (.object (deepClaims n)) :=
    .object hkeys (List.forall_mem_cons.mpr
      ⟨wellFormed_nestedArray n, List.forall_mem_singleton.mpr (.string "s")⟩)
  have hdepth : depth (.object (deepClaims n)) ≤ Json.maxDepth := by
    rw [depth_deepClaims, Json.maxDepth]
    omega
  have hself : Json.reread (.object (deepClaims n)) = .object (deepClaims n) := by
    rw [deepClaims, Json.reread, Json.rereadMembers, reread_nestedArray]
    rfl
  rw [deepRequest, Json.read?_compact hw, if_pos hdepth, hself]

theorem resolve_deepRequest {n : Nat} (hn : n ≤ 125) (l : Library) :
    (Setting.resolve ⟨.standard, l⟩ (deepRequest n)).outcome =
      .ok (Provider.oidc, Provider.assertion (.object (deepClaims n))) :=
  resolve_oidc (.inl rfl) (Provider.Oidc.parse_of_object (read?_deepRequest hn)) l

theorem run_deepRequest {n : Nat} (hn : n ≤ 125) (l : Library) :
    (Setting.run ⟨.standard, l⟩ ((deepRequest n).ask "")).outcome =
      .ok [("google.subject", .text "s")] := by
  have hne : (deepRequest n).payload ≠ "" := by
    intro hempty
    have hread := read?_deepRequest hn
    rw [hempty] at hread
    cases hread
  have hread : Expression.read "assertion.sub" = .ok (.member (.name "assertion") "sub") := by cbv
  have hvalue : Expression.Environment.evaluate ⟨Provider.oidc.declarations, l⟩
      (.member (.name "assertion") "sub") (Provider.assertion (.object (deepClaims n))) =
        .ok (.string "s") := by rfl
  have htime : ¬ MakesTimeOfNumber "assertion.sub" := by
    rw [← makesTimeOfNumber_iff]
    decide +kernel
  exact Accepts.run {
    payload := hne
    mapping := rfl
    some_entry := List.cons_ne_nil _ _
    keys := List.forall_mem_singleton.mpr (.inl rfl)
    resolved := Setting.resolve_eq_ok_iff.mp (resolve_deepRequest hn l)
    lengths := ⟨List.forall_mem_singleton.mpr (by decide), isAskable_empty.length⟩
    times := ⟨List.forall_mem_singleton.mpr htime, isAskable_empty.time⟩
    derived := .cons ⟨rfl, .text _ _ (by decide) hread hvalue⟩ .nil
    subject := ⟨"s", by decide, by decide⟩
    size := by decide
    count := by decide
    admitted := .inl rfl }

theorem depth_of_resolve_deepRequest {n : Nat} (hn : n ≤ 125) {l : Library} {p : Provider}
    {members : KeyMap Json} (h : (Setting.resolve ⟨.standard, l⟩ (deepRequest n)).outcome =
      .ok (p, Provider.assertion (.object members))) : depth (.object members) = n + 2 := by
  rw [resolve_deepRequest hn] at h
  cases h
  exact depth_deepClaims n

theorem ordered_deepRequest (n : Nat) :
    ∀ m, (deepRequest n).mapping = some m → KeyMap.Ordered m := by
  intro m hm
  cases hm
  exact KeyMap.ordered_cons.mpr ⟨by simp, KeyMap.ordered_nil⟩

/-- Claims that leave one level free. -/
theorem run_deepRequest_true :
    (∀ m, (deepRequest 124).mapping = some m → KeyMap.Ordered m) ∧
    (Setting.run ⟨.standard, .standard⟩ ((deepRequest 124).ask "")).outcome =
      .ok [("google.subject", .text "s")] ∧
    (Setting.run ⟨.standard, .standard⟩ ((deepRequest 124).ask "true")).outcome =
      .ok [("google.subject", .text "s")] := by
  have hn : 124 ≤ 125 := by decide
  have hordered := ordered_deepRequest 124
  have hempty := run_deepRequest hn .standard
  obtain ⟨p, members, hresolve, -, -, htrue⟩ :=
    run_true .standard (deepRequest 124) hordered hempty
  have hdepth := depth_of_resolve_deepRequest hn hresolve
  exact ⟨hordered, hempty, htrue.trans (if_pos hdepth.le)⟩

/-- Claims that use all levels are accepted without a condition, but not with the condition
`true`. -/
theorem not_neutral_true :
    ¬ ∀ (l : Library) (r : Request) (d : Derived),
      (Setting.run ⟨.standard, l⟩ (r.ask "")).outcome = .ok d →
        (Setting.run ⟨.standard, l⟩ (r.ask "true")).outcome = .ok d := by
  intro h
  have hempty := run_deepRequest le_rfl .standard
  obtain ⟨p, members, hresolve, -, -, htrue⟩ := run_of_isTrivial (ordered_deepRequest 125)
    isAskable_true (isTrivial_true .standard) hempty
  have hdepth := depth_of_resolve_deepRequest le_rfl hresolve
  rw [hdepth, if_neg (by decide)] at htrue
  cases htrue.symm.trans (h .standard (deepRequest 125) _ hempty)

end ClaimMapping.Mapping
