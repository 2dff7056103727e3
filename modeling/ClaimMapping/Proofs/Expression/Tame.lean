import ClaimMapping.Proofs.Expression.Variables
import ClaimMapping.Proofs.Journal.Outcome

namespace ClaimMapping.Expression

open Journal (Avoids avoids_ok avoids_mapM)

/-- Integers without a quotient. -/
inductive NoQuotient : Value → Value → Prop where
  | byZero (m : Int64) : NoQuotient (.int m) (.int 0)
  | tooLarge : NoQuotient (.int Int64.minValue) (.int (-1))
  | byZeroUnsigned (m : UInt64) : NoQuotient (.uint m) (.uint 0)

/-- The operators that need a quotient. -/
def Arithmetic.divides : Arithmetic → Bool
  | .divide => true
  | .remainder => true
  | _ => false

theorem avoids_fail {α : Type} (f : Fault) : Avoids .crash (fail f : Result α) := nofun

theorem hasQuotient_iff {a b : Int64} :
    hasQuotient a b = true ↔ ¬ NoQuotient (.int a) (.int b) := by
  rw [hasQuotient, Bool.and_eq_true, bne_iff_ne, Bool.not_eq_true', Bool.and_eq_false_imp]
  simp only [beq_iff_eq, beq_eq_false_iff_ne]
  constructor
  · intro ⟨hb, ha⟩ h
    cases h with
    | byZero => exact hb rfl
    | tooLarge => exact ha rfl rfl
  · intro h
    refine ⟨?_, ?_⟩
    · rintro rfl
      exact h (.byZero a)
    · rintro rfl rfl
      exact h .tooLarge

theorem Arithmetic.onInts_eq_crash_iff {op : Arithmetic} {a b : Int64} :
    op.onInts a b = .error .crash ↔ op.divides = true ∧ NoQuotient (.int a) (.int b) := by
  cases op with
  | divide | remainder =>
    simp only [Arithmetic.onInts, Arithmetic.divides, true_and]
    split
    next h => exact iff_of_false nofun (hasQuotient_iff.mp h)
    next h => exact iff_of_true rfl (not_not.mp fun hq => h (hasQuotient_iff.mpr hq))
  | _ => exact iff_of_false nofun nofun

theorem Arithmetic.onUInts_eq_crash_iff {op : Arithmetic} {a b : UInt64} :
    op.onUInts a b = .error .crash ↔ op.divides = true ∧ NoQuotient (.uint a) (.uint b) := by
  cases op with
  | divide | remainder =>
    simp only [Arithmetic.onUInts, Arithmetic.divides, true_and]
    split
    next h =>
      subst h
      exact iff_of_true rfl (.byZeroUnsigned a)
    next h =>
      refine iff_of_false nofun fun hq => ?_
      cases hq
      exact h rfl
  | _ => exact iff_of_false nofun nofun

/-- Among the operators only divisions end an evaluation without a report, and only those without a
quotient. -/
theorem Arithmetic.apply_eq_crash_iff {op : Arithmetic} {a b : Value} :
    op.apply a b = .error .crash ↔ op.divides = true ∧ NoQuotient a b := by
  unfold Arithmetic.apply
  split
  case h_1 => exact onInts_eq_crash_iff
  case h_2 => exact onUInts_eq_crash_iff
  case h_3 hints huints =>
    refine iff_of_false ?_ fun ⟨_, hq⟩ => ?_
    · dsimp only
      split
      · exact nofun
      · split <;> exact nofun
    · cases hq with
      | byZero => exact hints _ _ rfl rfl
      | tooLarge => exact hints _ _ rfl rfl
      | byZeroUnsigned => exact huints _ _ rfl rfl

theorem Unary.avoids_apply (op : Unary) (v : Value) : Avoids .crash (op.apply v) := by
  cases op <;> cases v <;> exact nofun

theorem avoids_ordered (a b : Value) (p : Ordering → Bool) : Avoids .crash (ordered a b p) := by
  unfold ordered
  split <;> exact nofun

theorem Relation.avoids_holds (op : Relation) (a b : Value) : Avoids .crash (op.holds a b) := by
  cases op with
  | equal | notEqual => exact avoids_ok _
  | within =>
    show Avoids .crash (isWithin a b)
    unfold isWithin
    split <;> exact nofun
  | _ => exact avoids_ordered a b _

theorem avoids_variableOf (s : Scope) (x : String) : Avoids .crash (variableOf s x) := by
  unfold variableOf
  split <;> exact nofun

theorem avoids_memberOf (l : Library) (v : Value) (name : String) :
    Avoids .crash (memberOf l v name) := by
  unfold memberOf
  split
  · exact avoids_ok _
  · split <;> exact nofun

theorem avoids_keyOf (v : Value) : Avoids .crash (keyOf v) := by
  unfold keyOf
  split <;> exact nofun

theorem Value.avoids_at (v index : Value) : Avoids .crash (v.at index) := by
  unfold Value.at
  split
  case h_3 => split <;> exact nofun
  all_goals exact nofun

namespace Call

/-- No argument crashes in the scope of the call. -/
def Quiet (c : Call) : Prop := ∀ a ∈ c.args, Avoids .crash (a.run c.scope)

variable {c : Call}

theorem avoids_refuse {α : Type} (c : Call) (reason : String) :
    Avoids .crash (c.refuse reason : Result α) := nofun

theorem avoids_asString (v : Value) : Avoids .crash (asString v) := by
  cases v <;> exact nofun

/-- Only the first argument can stand in. -/
theorem avoids_standIn (h : ∀ a ∈ c.args.head?, Avoids .crash (a.run c.scope)) :
    Avoids .crash c.standIn := by
  unfold standIn
  split
  case h_1 => exact avoids_fail _
  case h_2 a ha =>
    split
    case h_1 => exact avoids_fail _
    case h_2 => exact h a ha

namespace Quiet

theorem argument (h : c.Quiet) (i : Nat) : Avoids .crash (c.argument i) := by
  unfold Call.argument
  split
  case h_1 a ha => exact h a (List.mem_of_getElem? ha)
  case h_2 => exact avoids_fail _

theorem arguments (h : c.Quiet) : Avoids .crash c.arguments := avoids_mapM h

theorem target (h : c.Quiet) : Avoids .crash c.target := by
  unfold Call.target
  split
  case h_1 => exact avoids_ok _
  case h_2 => exact (avoids_standIn fun a ha => h a (List.mem_of_head? ha)).map _

theorem stringTarget (h : c.Quiet) : Avoids .crash c.stringTarget :=
  h.target.bind fun ⟨v, _⟩ _ => (avoids_asString v).bind fun _ _ => avoids_ok _

theorem stringArgument (h : c.Quiet) (i : Nat) : Avoids .crash (c.stringArgument i) :=
  (h.argument i).bind fun v _ => avoids_asString v

end Quiet
end Call

/-- A function that crashes only with its arguments. -/
def IsTame (f : Call → Result Value) : Prop := ∀ ⦃c : Call⦄, c.Quiet → Avoids .crash (f c)

theorem isTame_callLibrary (f : List Value → Except String Value) : IsTame (callLibrary f) := by
  intro c h
  refine h.arguments.bind fun args _ => ?_
  split
  · exact avoids_ok _
  · exact c.avoids_refuse _

theorem isTame_size : IsTame size := by
  intro c h
  refine h.target.bind fun ⟨v, _⟩ _ => ?_
  cases v <;> exact nofun

theorem isTame_stringTest (p : List Char → List Char → Bool) : IsTame (stringTest p) := by
  intro c h
  refine h.stringTarget.bind fun ⟨s, next⟩ _ => ?_
  exact (h.stringArgument next).bind fun _ _ => avoids_ok _

theorem isTame_matchesPattern : IsTame matchesPattern := by
  intro c h
  refine h.stringTarget.bind fun ⟨s, next⟩ _ => ?_
  refine (h.stringArgument next).bind fun pattern _ => ?_
  split
  · exact avoids_ok _
  · exact c.avoids_refuse _

theorem isTame_has : IsTame has := by
  intro c h
  unfold has
  split
  case h_1 => exact avoids_ok _
  case h_2 => exact avoids_ok _
  case h_3 he => exact he ▸ h.argument 0

theorem avoids_extreme (beyond : Ordering) (best : Value) (vs : List Value) :
    Avoids .crash (extreme beyond best vs) := by
  induction vs generalizing best with
  | nil => exact avoids_ok _
  | cons v vs ih =>
    rw [extreme]
    split
    · exact avoids_fail _
    · exact ih _

theorem isTame_extremeOf (beyond : Ordering) : IsTame (extremeOf beyond) := by
  intro c h
  refine h.arguments.bind fun args _ => ?_
  split
  · exact avoids_ok _
  · exact avoids_extreme beyond _ _
  · exact avoids_ok _
  · exact avoids_extreme beyond _ _

theorem isTame_stringOf : IsTame stringOf := by
  intro c h
  refine h.target.bind fun ⟨v, _⟩ _ => ?_
  cases v <;> exact nofun

theorem isTame_bytesOf : IsTame bytesOf := by
  intro c h
  exact (h.stringArgument 0).bind fun _ _ => avoids_ok _

theorem isTame_doubleOf : IsTame doubleOf := by
  intro c h
  refine h.target.bind fun ⟨v, _⟩ _ => ?_
  dsimp only
  split
  case h_2 => split <;> exact nofun
  all_goals exact nofun

theorem isTame_intOf : IsTame intOf := by
  intro c h
  refine h.target.bind fun ⟨v, _⟩ _ => ?_
  dsimp only
  split
  case h_3 => exact avoids_ok _
  case h_5 => exact c.avoids_refuse _
  all_goals split <;> exact nofun

theorem isTame_uintOf : IsTame uintOf := by
  intro c h
  refine h.target.bind fun ⟨v, _⟩ _ => ?_
  dsimp only
  split
  case h_4 => exact avoids_ok _
  case h_5 => exact c.avoids_refuse _
  all_goals split <;> exact nofun

theorem isTame_durationOf : IsTame durationOf := by
  intro c h
  refine (h.stringArgument 0).bind fun s _ => ?_
  split <;> exact nofun

theorem isTame_timestampOf : IsTame timestampOf := by
  intro c h
  refine (h.stringArgument 0).bind fun s _ => ?_
  split <;> exact nofun

theorem isTame_timeField (field : Time.Timestamp → Int) : IsTame (timeField field) := by
  intro c h
  refine h.target.bind fun ⟨v, _⟩ _ => ?_
  cases v <;> exact nofun

/-- Among the functions only loops and the search of bytes end an evaluation themselves; all others
crash only with one of their arguments. -/
theorem isTame_of_builtin? {name : String} {f : Call → Result Value} (h : builtin? name = some f)
    (hloop : name ∉ loopNames) (hsearch : name ≠ "contains") : IsTame f := by
  unfold builtin? at h
  split at h
  case h_1 => exact absurd rfl hsearch
  case h_2 => exact Option.some.inj h ▸ isTame_size
  case h_3 => exact Option.some.inj h ▸ isTame_has
  case h_9 => exact Option.some.inj h ▸ isTame_extremeOf .gt
  case h_10 => exact Option.some.inj h ▸ isTame_extremeOf .lt
  case h_11 => exact Option.some.inj h ▸ isTame_stringTest Text.startsWith
  case h_12 => exact Option.some.inj h ▸ isTame_stringTest Text.endsWith
  case h_13 => exact Option.some.inj h ▸ isTame_matchesPattern
  case h_14 => exact Option.some.inj h ▸ isTame_stringOf
  case h_15 => exact Option.some.inj h ▸ isTame_bytesOf
  case h_16 => exact Option.some.inj h ▸ isTame_doubleOf
  case h_17 => exact Option.some.inj h ▸ isTame_intOf
  case h_18 => exact Option.some.inj h ▸ isTame_uintOf
  case h_19 => exact Option.some.inj h ▸ isTame_durationOf
  case h_20 => exact Option.some.inj h ▸ isTame_timestampOf
  case h_21 =>
    obtain ⟨field, -, he⟩ := Option.map_eq_some_iff.mp h
    exact he ▸ isTame_timeField field
  all_goals exact absurd (by decide) hloop

/-- The one other function that can crash has a receiver and an argument of bytes then. -/
theorem avoids_contains {c : Call} (h : c.Quiet)
    (hbytes : ∀ bs next, c.target = .ok (.bytes bs, next) → c.argument next ≠ .ok (.bytes [])) :
    Avoids .crash (contains c) := by
  refine h.target.bind fun ⟨v, next⟩ hv => ?_
  refine (h.argument next).bind fun arg harg => ?_
  refine Avoids.bind ?_ fun _ _ => avoids_ok _
  unfold containsValue
  split
  case h_2 => split <;> exact nofun
  case h_4 bs part =>
    cases part with
    | nil => exact absurd harg (hbytes bs next hv)
    | cons b part => exact avoids_ok _
  all_goals exact avoids_ok _

/-- A loop that crashes only with its body at an element. -/
def Heeds (work : (Value → Result Value) → Value → Result Value) : Prop :=
  ∀ ⦃f v⦄, (∀ vs, elements v = .ok vs → ∀ u ∈ vs, Avoids .crash (f u)) → Avoids .crash (work f v)

theorem avoids_elements (v : Value) : Avoids .crash (elements v) := by
  unfold elements
  split <;> exact nofun

theorem avoids_filterItems {f : Value → Result Value} {vs : List Value}
    (h : ∀ v ∈ vs, Avoids .crash (f v)) : Avoids .crash (filterItems f vs) := by
  induction vs with
  | nil => exact avoids_ok _
  | cons v vs ih =>
    obtain ⟨hv, hvs⟩ := List.forall_mem_cons.mp h
    exact hv.bind fun _ _ => (ih hvs).bind fun _ _ => avoids_ok _

theorem avoids_anyItem {f : Value → Result Value} (wanted : Bool) {vs : List Value}
    (h : ∀ v ∈ vs, Avoids .crash (f v)) : Avoids .crash (anyItem f wanted vs) := by
  induction vs with
  | nil => exact avoids_ok _
  | cons v vs ih =>
    obtain ⟨hv, hvs⟩ := List.forall_mem_cons.mp h
    refine hv.bind fun verdict _ => ?_
    split_ifs
    · exact avoids_ok _
    · exact ih hvs

theorem avoids_oneItem {f : Value → Result Value} {vs : List Value}
    (h : ∀ v ∈ vs, Avoids .crash (f v)) : Avoids .crash (oneItem f vs) := by
  induction vs with
  | nil => exact avoids_ok _
  | cons v vs ih =>
    obtain ⟨hv, hvs⟩ := List.forall_mem_cons.mp h
    refine hv.bind fun verdict _ => ?_
    split_ifs
    · exact (avoids_anyItem true hvs).map _
    · exact ih hvs

theorem heeds_mapLoop : Heeds mapLoop := fun _ v h =>
  (avoids_elements v).bind fun vs hvs => (avoids_mapM (h vs hvs)).bind fun _ _ => avoids_ok _

theorem heeds_filterLoop : Heeds filterLoop := by
  intro f v h
  unfold filterLoop
  split
  case h_1 items => exact (avoids_filterItems (h items rfl)).map _
  case h_2 => exact avoids_fail _

theorem heeds_allLoop : Heeds allLoop := fun _ v h =>
  (avoids_elements v).bind fun vs hvs =>
    (avoids_anyItem false (h vs hvs)).bind fun _ _ => avoids_ok _

theorem heeds_existsLoop : Heeds existsLoop := fun _ v h =>
  (avoids_elements v).bind fun vs hvs =>
    (avoids_anyItem true (h vs hvs)).bind fun _ _ => avoids_ok _

theorem heeds_existsOneLoop : Heeds existsOneLoop := fun _ v h =>
  (avoids_elements v).bind fun vs hvs => (avoids_oneItem (h vs hvs)).bind fun _ _ => avoids_ok _

/-- The name of a loop, where no library takes it, stands for a loop that heeds its body. -/
theorem function?_of_isLoop {l : Library} {name : String} (h : isLoop l name = true) :
    ∃ work, function? l name = some (withLoop work) ∧ Heeds work := by
  rw [isLoop, Bool.and_eq_true, Option.isNone_iff_eq_none, List.contains_iff_mem] at h
  obtain ⟨hl, hname⟩ := h
  rw [function?, hl]
  simp only [loopNames, List.mem_cons, List.not_mem_nil, or_false] at hname
  obtain rfl | rfl | rfl | rfl | rfl := hname
  · exact ⟨mapLoop, rfl, heeds_mapLoop⟩
  · exact ⟨filterLoop, rfl, heeds_filterLoop⟩
  · exact ⟨allLoop, rfl, heeds_allLoop⟩
  · exact ⟨existsLoop, rfl, heeds_existsLoop⟩
  · exact ⟨existsOneLoop, rfl, heeds_existsOneLoop⟩

/-- A function without a loop variable crashes only with its arguments or in search of no bytes. -/
theorem avoids_of_function? {l : Library} {name : String} {f : Call → Result Value}
    (hf : function? l name = some f) (hl : isLoop l name ≠ true) {c : Call} (hc : c.Quiet)
    (hsearch : KeyMap.get? l name = none → name = "contains" → ∀ bs next,
      c.target = .ok (.bytes bs, next) → c.argument next ≠ .ok (.bytes [])) :
    Avoids .crash (f c) := by
  cases hg : KeyMap.get? l name with
  | some g =>
    rw [function?, hg] at hf
    cases hf
    exact isTame_callLibrary g hc
  | none =>
    rw [function?, hg] at hf
    have hloop : name ∉ loopNames := by
      rwa [isLoop, hg, Option.isNone_none, Bool.true_and, Ne, List.contains_iff_mem] at hl
    by_cases hname : name = "contains"
    · subst hname
      cases hf
      exact avoids_contains hc (hsearch hg rfl)
    · exact isTame_of_builtin? hf hloop hname hc

end ClaimMapping.Expression
