import ClaimMapping.Proofs.Expression.Binding
import ClaimMapping.Proofs.Expression.Variables
import ClaimMapping.Proofs.Text.Utf8

namespace ClaimMapping.Expression

open Journal (bind_eq_error_iff mapError_eq_error_iff)

/-- What a variable holds; without a binding it is null. -/
def valueIn (b : Bindings) (x : String) : Value := ((KeyMap.get? b x).map Value.ofJson).getD .null

/-- The declared variables with what they hold. -/
def declaredScope (ds : List Declaration) (b : Bindings) : Scope :=
  ds.map fun d => (d.name, valueIn b d.name)

/-- The binding of the declaration, if there is one, follows the schema, if there is one. -/
def Declaration.Fits (b : Bindings) (d : Declaration) : Prop :=
  d.schema.isSome → ∀ j, KeyMap.get? b d.name = some j → j.isObject

/-- The defect that bindings are refused for. -/
inductive Misbinds (ds : List Declaration) (b : Bindings) : BindError → Prop
  | undeclared {x : String} (bound : x ∈ KeyMap.keys b) (unknown : ∀ d ∈ ds, d.name ≠ x)
      (least : ∀ y ∈ KeyMap.keys b, (∀ d ∈ ds, d.name ≠ y) →
        Text.Utf8.bytes x ≤ Text.Utf8.bytes y) : Misbinds ds b (.undeclared x)
  | notObject {before after : List Declaration} {d : Declaration} {schema : String} {j : Json}
      (declared : ∀ x ∈ KeyMap.keys b, ∃ d ∈ ds, d.name = x) (split : ds = before ++ d :: after)
      (earlier : ∀ d' ∈ before, d'.Fits b) (typed : d.schema = some schema)
      (bound : KeyMap.get? b d.name = some j) (flat : j.isObject = false) :
      Misbinds ds b (.notObject d.name schema)

variable {ds ds' : List Declaration} {b : Bindings}

/-- Bindings do not fit when one of them is undeclared, or a variable with a schema holds no
object. -/
theorem not_conforms_iff :
    ¬ Conforms ds b ↔ (∃ x ∈ KeyMap.keys b, ∀ d ∈ ds, d.name ≠ x) ∨
      ∃ d ∈ ds, d.schema.isSome ∧ ∃ j, KeyMap.get? b d.name = some j ∧ j.isObject = false := by
  have hsplit : Conforms ds b ↔ (∀ x ∈ KeyMap.keys b, ∃ d ∈ ds, d.name = x) ∧
      ∀ d ∈ ds, d.schema.isSome → ∀ j, KeyMap.get? b d.name = some j → j.isObject :=
    ⟨fun h => ⟨h.declared, h.objects⟩, fun h => ⟨h.1, h.2⟩⟩
  rw [hsplit, not_and_or]
  push Not
  simp only [Bool.not_eq_true]

theorem Conforms.perm (h : Conforms ds b) (hperm : ds.Perm ds') : Conforms ds' b where
  declared x hx := by
    obtain ⟨d, hd, hname⟩ := h.declared x hx
    exact ⟨d, hperm.mem_iff.mp hd, hname⟩
  objects d hd := h.objects d (hperm.mem_iff.mpr hd)

/-- Each declared variable has its value and nothing else has one, whatever else is in the
bindings. -/
theorem lookup_declaredScope (ds : List Declaration) (b : Bindings) (x : String) :
    (declaredScope ds b).lookup x =
      if x ∈ ds.map Declaration.name then some (valueIn b x) else none := by
  induction ds with
  | nil => rfl
  | cons d ds ih =>
    rw [declaredScope, List.map_cons, List.lookup_cons, ← declaredScope, ih]
    by_cases hx : x = d.name
    · subst hx
      rw [beq_self_eq_true, List.map_cons, if_pos List.mem_cons_self]
    · rw [beq_eq_false_iff_ne.mpr hx]
      simp [hx]

/-- The order of the declarations does not show. -/
theorem agreeOn_declaredScope (h : ∀ d, d ∈ ds ↔ d ∈ ds') (vars : List String) :
    AgreeOn vars (declaredScope ds b) (declaredScope ds' b) := by
  intro x _
  rw [lookup_declaredScope, lookup_declaredScope]
  simp only [List.mem_map, h]

namespace Environment

theorem valueOf_of_fits {d : Declaration} (h : d.Fits b) :
    valueOf b d = .ok (valueIn b d.name) := by
  unfold Declaration.Fits at h
  unfold valueOf valueIn
  cases hb : KeyMap.get? b d.name with
  | none => rfl
  | some j =>
    cases hs : d.schema with
    | none => rfl
    | some schema =>
      rw [hb, hs] at h
      exact if_pos (h rfl j rfl)

theorem valueOf_eq_error_iff {d : Declaration} {defect : BindError} :
    valueOf b d = .error defect ↔ ∃ schema j, d.schema = some schema ∧
      KeyMap.get? b d.name = some j ∧ j.isObject = false ∧ defect = .notObject d.name schema := by
  unfold valueOf
  cases KeyMap.get? b d.name with
  | none => simp
  | some j =>
    cases d.schema with
    | none => simp
    | some schema =>
      dsimp only
      cases hj : j.isObject with
      | true => simp [hj]
      | false =>
        rw [if_neg Bool.false_ne_true]
        constructor
        · intro h
          exact ⟨schema, j, rfl, rfl, hj, (Except.error.inj h).symm⟩
        · rintro ⟨_, _, hschema, hj', -, rfl⟩
          cases hschema
          rfl

theorem bindAll_of_fits (h : ∀ d ∈ ds, d.Fits b) (scope : Scope) :
    bindAll b ds scope = .ok ((declaredScope ds b).reverse ++ scope) := by
  induction ds generalizing scope with
  | nil => rfl
  | cons d ds ih =>
    obtain ⟨hd, hds⟩ := List.forall_mem_cons.mp h
    rw [bindAll, valueOf_of_fits hd]
    refine (ih hds _).trans ?_
    rw [declaredScope, declaredScope, List.map_cons, List.reverse_cons, List.append_assoc,
      List.singleton_append]

/-- The first declaration that is not followed is the one that is named. -/
theorem bindAll_eq_error_iff {scope : Scope} {defect : BindError} :
    bindAll b ds scope = .error defect ↔ ∃ before d after, ds = before ++ d :: after ∧
      (∀ d' ∈ before, d'.Fits b) ∧ valueOf b d = .error defect := by
  induction ds generalizing scope with
  | nil => simp [bindAll]
  | cons d ds ih =>
    rw [bindAll, bind_eq_error_iff]
    constructor
    · rintro (hd | ⟨v, hv, hds⟩)
      · exact ⟨[], d, ds, rfl, by simp, hd⟩
      · obtain ⟨before, d', after, rfl, hbefore, hd'⟩ := ih.mp hds
        have hfits : d.Fits b := exists_valueOf_iff.mp ⟨v, hv⟩
        exact ⟨d :: before, d', after, rfl, List.forall_mem_cons.mpr ⟨hfits, hbefore⟩, hd'⟩
    · rintro ⟨before, d', after, hsplit, hbefore, hd'⟩
      cases before with
      | nil =>
        obtain ⟨rfl, rfl⟩ := List.cons.inj hsplit
        exact .inl hd'
      | cons d'' before =>
        obtain ⟨rfl, rfl⟩ := List.cons.inj hsplit
        obtain ⟨hd, hbefore⟩ := List.forall_mem_cons.mp hbefore
        exact .inr ⟨_, valueOf_of_fits hd, ih.mpr ⟨before, d', after, rfl, hbefore, hd'⟩⟩

/-- In an increasing list the first match is the least. -/
theorem find?_eq_some_iff_least {names : List String} (h : names.Pairwise (· < ·))
    {p : String → Bool} {x : String} :
    names.find? p = some x ↔ x ∈ names ∧ p x = true ∧ ∀ y ∈ names, p y = true → x ≤ y := by
  constructor
  · intro hx
    obtain ⟨hpx, before, after, rfl, hbefore⟩ := List.find?_eq_some_iff_append.mp hx
    refine ⟨by simp, hpx, fun y hy hpy => ?_⟩
    obtain hy | hy := List.mem_append.mp hy
    · have := hbefore y hy
      rw [hpy] at this
      cases this
    · obtain rfl | hy := List.mem_cons.mp hy
      · exact le_refl _
      · exact ((List.pairwise_cons.mp (List.pairwise_append.mp h).2.1).1 y hy).le
  · rintro ⟨hx, hpx, hleast⟩
    obtain ⟨z, hz⟩ := Option.isSome_iff_exists.mp (List.find?_isSome.mpr ⟨x, hx, hpx⟩)
    obtain ⟨hpz, before, after, rfl, hbefore⟩ := List.find?_eq_some_iff_append.mp hz
    obtain hx | hx := List.mem_append.mp hx
    · have := hbefore x hx
      rw [hpx] at this
      cases this
    · obtain rfl | hx := List.mem_cons.mp hx
      · exact hz
      · have hzx := (List.pairwise_cons.mp (List.pairwise_append.mp h).2.1).1 x hx
        exact absurd hzx (hleast z (by simp) hpz).not_gt

variable {env : Environment}

theorem not_declares_iff {x : String} :
    (!env.declares x) = true ↔ ∀ d ∈ env.declarations, d.name ≠ x := by
  simp [declares]

/-- Bindings that fit give each declared variable a value, wherever its declaration stands. -/
theorem scope_of_conforms (h : Conforms env.declarations b) :
    env.scope b = .ok (declaredScope env.declarations b).reverse := by
  rw [scope, find?_not_declares_eq_none_iff.mpr h.declared]
  exact (bindAll_of_fits h.objects []).trans (congrArg _ (List.append_nil _))

/-- Bindings that do not fit are refused with the first of their defects. -/
theorem scope_eq_error_iff (hb : KeyMap.Ordered b) {defect : BindError} :
    env.scope b = .error defect ↔ Misbinds env.declarations b defect := by
  rw [scope]
  cases hfind : (KeyMap.keys b).find? (fun x => !env.declares x) with
  | some x =>
    obtain ⟨hx, hpx, hleast⟩ := (find?_eq_some_iff_least hb).mp hfind
    have hunknown := not_declares_iff.mp hpx
    constructor
    · intro h
      cases h
      exact .undeclared hx hunknown fun y hy hy' =>
        Text.Utf8.bytes_strictMono.monotone (hleast y hy (not_declares_iff.mpr hy'))
    · intro h
      cases h with
      | @undeclared y hy hy' hleast' =>
        have hyx := Text.Utf8.bytes_strictMono.le_iff_le.mp (hleast' x hx hunknown)
        rw [hyx.antisymm (hleast y hy (not_declares_iff.mpr hy'))]
      | notObject hdeclared =>
        obtain ⟨d, hd, hname⟩ := hdeclared x hx
        exact absurd hname (hunknown d hd)
  | none =>
    have hdeclared := find?_not_declares_eq_none_iff.mp hfind
    dsimp only
    rw [bindAll_eq_error_iff]
    constructor
    · rintro ⟨before, d, after, hsplit, hbefore, hd⟩
      obtain ⟨schema, j, hschema, hj, hflat, rfl⟩ := valueOf_eq_error_iff.mp hd
      exact .notObject hdeclared hsplit hbefore hschema hj hflat
    · intro h
      cases h with
      | @undeclared x hx hunknown =>
        obtain ⟨d, hd, hname⟩ := hdeclared x hx
        exact absurd hname (hunknown d hd)
      | notObject _ hsplit hbefore hschema hj hflat =>
        exact ⟨_, _, _, hsplit, hbefore,
          valueOf_eq_error_iff.mpr ⟨_, _, hschema, hj, hflat, rfl⟩⟩

/-- An evaluation has a binding error exactly when there is no scope: no expression can make one. -/
theorem evaluate_eq_bind_iff {e : Expr} {defect : BindError} :
    env.evaluate e b = .error (.error (.bind defect)) ↔ env.scope b = .error defect := by
  rw [evaluate]
  cases env.scope b with
  | error defect' => simp
  | ok s =>
    constructor
    · intro h
      obtain ⟨failure, -, hf⟩ := mapError_eq_error_iff.mp h
      cases failure <;> cases hf
    · intro h
      cases h

theorem evaluate_of_conforms (h : Conforms env.declarations b) (e : Expr) :
    env.evaluate e b =
      (eval env.library e (declaredScope env.declarations b)).mapError .ofFailure := by
  have hreverse : (declaredScope env.declarations b).reverse =
      declaredScope env.declarations.reverse b := List.map_reverse.symm
  rw [evaluate, scope_of_conforms h, hreverse]
  exact congrArg (Except.mapError Stop.ofFailure) <|
    eval_congr env.library e (agreeOn_declaredScope (fun _ => List.mem_reverse) _)

theorem exists_bind_iff {e : Expr} :
    (∃ defect, env.evaluate e b = .error (.error (.bind defect))) ↔
      ¬ Conforms env.declarations b := by
  simp only [evaluate_eq_bind_iff]
  rw [← exists_scope_iff]
  cases env.scope b <;> simp

/-- The order of the declarations makes no difference to any expression. -/
theorem evaluate_perm (h : Conforms env.declarations b) (hperm : env.declarations.Perm ds')
    (e : Expr) : Environment.evaluate ⟨ds', env.library⟩ e b = env.evaluate e b := by
  have h' : Conforms (Environment.mk ds' env.library).declarations b := h.perm hperm
  rw [evaluate_of_conforms h, evaluate_of_conforms h']
  exact congrArg (Except.mapError Stop.ofFailure) <|
    eval_congr env.library e (agreeOn_declaredScope (fun _ => hperm.mem_iff.symm) _)

section Null

variable {x : String} (hnames : (ds.map Declaration.name).Nodup) (hx : .dynamic x ∈ ds)
  (hfree : KeyMap.get? b x = none)

theorem valueIn_insert_null (hfree : KeyMap.get? b x = none) (y : String) :
    valueIn (KeyMap.insert b x .null) y = valueIn b y := by
  rw [valueIn, valueIn, KeyMap.get?_insert]
  by_cases hy : y = x
  · rw [if_pos hy, hy, hfree]
    rfl
  · rw [if_neg hy]

include hnames hx

theorem fits_insert_null {d : Declaration} (hd : d ∈ ds) :
    d.Fits (KeyMap.insert b x .null) ↔ d.Fits b := by
  unfold Declaration.Fits
  by_cases hname : d.name = x
  · have : d = .dynamic x := List.inj_on_of_nodup_map hnames hd hx hname
    subst this
    exact iff_of_true nofun nofun
  · rw [KeyMap.get?_insert, if_neg hname]

theorem conforms_insert_null (h : Conforms ds b) : Conforms ds (KeyMap.insert b x .null) where
  declared y hy := by
    obtain rfl | hy := KeyMap.mem_keys_insert.mp hy
    · exact ⟨_, hx, rfl⟩
    · exact h.declared y hy
  objects d hd := (fits_insert_null hnames hx hd).mpr (h.objects d hd)

include hfree

theorem misbinds_insert_null {defect : BindError} (h : Misbinds ds b defect) :
    Misbinds ds (KeyMap.insert b x .null) defect := by
  cases h with
  | undeclared bound unknown least =>
    refine .undeclared (KeyMap.mem_keys_insert.mpr (.inr bound)) unknown fun y hy hy' => ?_
    obtain rfl | hy := KeyMap.mem_keys_insert.mp hy
    · exact absurd rfl (hy' _ hx)
    · exact least y hy hy'
  | @notObject before after d schema j declared split earlier typed bound flat =>
    have hne : d.name ≠ x := by
      rintro rfl
      rw [hfree] at bound
      cases bound
    refine .notObject (fun y hy => ?_) split (fun d' hd' => ?_) typed ?_ flat
    · obtain rfl | hy := KeyMap.mem_keys_insert.mp hy
      · exact ⟨_, hx, rfl⟩
      · exact declared y hy
    · have hmem : d' ∈ ds := by
        rw [split]
        exact List.mem_append_left _ hd'
      exact (fits_insert_null hnames hx hmem).mpr (earlier d' hd')
    · rw [KeyMap.get?_insert, if_neg hne]
      exact bound

end Null

/-- A variable that may hold anything and is bound to nothing holds null, so binding null to it
changes nothing. -/
theorem evaluate_insert_null (hnames : (env.declarations.map Declaration.name).Nodup)
    (hb : KeyMap.Ordered b) {x : String} (hx : .dynamic x ∈ env.declarations)
    (hfree : KeyMap.get? b x = none) (e : Expr) :
    env.evaluate e (KeyMap.insert b x .null) = env.evaluate e b := by
  by_cases h : Conforms env.declarations b
  · rw [evaluate_of_conforms h, evaluate_of_conforms (conforms_insert_null hnames hx h)]
    simp only [declaredScope, valueIn_insert_null hfree]
  · obtain ⟨defect, hdefect⟩ := exists_bind_iff (e := e).mpr h
    have hmis := (scope_eq_error_iff hb).mp (evaluate_eq_bind_iff.mp hdefect)
    rw [hdefect, evaluate_eq_bind_iff, scope_eq_error_iff (hb.insert _ _)]
    exact misbinds_insert_null hnames hx hfree hmis

/-- Bindings are refused for their first defect and for nothing else, and what is not refused is
evaluated over the declared variables only: a dynamic variable without a binding is one bound to
null, and declarations in another order are the same declarations. -/
theorem evaluate_closed (env : Environment)
    (hnames : (env.declarations.map Declaration.name).Nodup) (b : Bindings)
    (hb : KeyMap.Ordered b) (e : Expr) :
    ((∃ defect, env.evaluate e b = .error (.error (.bind defect))) ↔
      (∃ x ∈ KeyMap.keys b, ∀ d ∈ env.declarations, d.name ≠ x) ∨
        ∃ d ∈ env.declarations, d.schema.isSome ∧
          ∃ j, KeyMap.get? b d.name = some j ∧ j.isObject = false) ∧
    (∀ defect, env.evaluate e b = .error (.error (.bind defect)) ↔
      Misbinds env.declarations b defect) ∧
    (Conforms env.declarations b → env.evaluate e b =
      (eval env.library e (declaredScope env.declarations b)).mapError .ofFailure) ∧
    (∀ x, .dynamic x ∈ env.declarations → KeyMap.get? b x = none →
      env.evaluate e (KeyMap.insert b x .null) = env.evaluate e b) ∧
    ∀ ds, env.declarations.Perm ds → Conforms env.declarations b →
      Environment.evaluate ⟨ds, env.library⟩ e b = env.evaluate e b :=
  ⟨exists_bind_iff.trans not_conforms_iff,
    fun _ => evaluate_eq_bind_iff.trans (scope_eq_error_iff hb),
    fun h => evaluate_of_conforms h e,
    fun _ hx hfree => evaluate_insert_null hnames hb hx hfree e,
    fun _ hperm h => evaluate_perm h hperm e⟩

/-- An undeclared name is refused before the object that is missing, and an unbound variable is
null. -/
theorem evaluate_closed_two_variables :
    (([.dynamic "google", .object "assertion" "schema"] : List Declaration).map
      Declaration.name).Nodup ∧
    KeyMap.Ordered ([("assertion", .null), ("other", .null)] : Bindings) ∧
    Environment.evaluate ⟨[.dynamic "google", .object "assertion" "schema"], Library.empty⟩
      (.name "google") [("assertion", .null), ("other", .null)] =
        .error (.error (.bind (.undeclared "other"))) ∧
    Environment.evaluate ⟨[.dynamic "google", .object "assertion" "schema"], Library.empty⟩
      (.name "google") [] = .ok .null := by
  let env : Environment := ⟨[.dynamic "google", .object "assertion" "schema"], Library.empty⟩
  have hnames : (env.declarations.map Declaration.name).Nodup := by decide
  have hb : KeyMap.Ordered ([("assertion", .null), ("other", .null)] : Bindings) := by
    unfold KeyMap.Ordered
    decide
  obtain ⟨-, hrefused, -⟩ := evaluate_closed env hnames _ hb (.name "google")
  obtain ⟨-, -, -, hnull, -⟩ := evaluate_closed env hnames [] KeyMap.ordered_nil (.name "google")
  refine ⟨hnames, hb, (hrefused _).mpr (.undeclared (by decide) (by decide) ?_),
    (hnull "google" (by decide) rfl).symm.trans rfl⟩
  intro y hy hy'
  obtain rfl | rfl : y = "assertion" ∨ y = "other" := by simpa using hy
  · exact absurd rfl (hy' (.object "assertion" "schema") (by decide))
  · exact le_refl _

end Environment
end ClaimMapping.Expression
