import ClaimMapping.Expression.Eval

namespace ClaimMapping.Expression

namespace Call

/-- What the arguments give in the scope of the call. -/
def outcomes (c : Call) : List (Result Value) := c.args.map fun a => a.run c.scope

/-- The same call as far as the outcomes of the arguments go. -/
structure Alike (c d : Call) : Prop where
  function : c.function = d.function
  receiver : c.receiver = d.receiver
  outcomes : c.outcomes = d.outcomes

theorem argument_eq (c : Call) (i : Nat) :
    c.argument i = c.outcomes[i]?.getD (fail (.argumentCount (i + 1) c.outcomes.length)) := by
  rw [argument, outcomes, List.getElem?_map, List.length_map]
  cases c.args[i]? <;> rfl

theorem standIn_eq (c : Call) :
    c.standIn = (c.outcomes.head?.map fun
      | .error (.fault _) => fail .missingTarget
      | outcome => outcome).getD (fail .missingTarget) := by
  rw [standIn, outcomes, List.head?_map]
  cases c.args.head? <;> rfl

theorem arguments_eq (c : Call) : c.arguments = c.outcomes.mapM id := by
  rw [arguments, outcomes, List.mapM_map]
  rfl

namespace Alike

variable {c d : Call}

theorem refuse (h : c.Alike d) {α : Type} (reason : String) :
    (c.refuse reason : Result α) = d.refuse reason := by
  rw [Call.refuse, Call.refuse, h.function]

theorem argument (h : c.Alike d) (i : Nat) : c.argument i = d.argument i := by
  rw [argument_eq, argument_eq, h.outcomes]

theorem standIn (h : c.Alike d) : c.standIn = d.standIn := by
  rw [standIn_eq, standIn_eq, h.outcomes]

theorem arguments (h : c.Alike d) : c.arguments = d.arguments := by
  rw [arguments_eq, arguments_eq, h.outcomes]

theorem target (h : c.Alike d) : c.target = d.target := by
  rw [Call.target, Call.target, h.receiver, h.standIn]

theorem stringTarget (h : c.Alike d) : c.stringTarget = d.stringTarget := by
  rw [Call.stringTarget, Call.stringTarget, h.target]

theorem stringArgument (h : c.Alike d) (i : Nat) : c.stringArgument i = d.stringArgument i := by
  rw [Call.stringArgument, Call.stringArgument, h.argument]

end Alike
end Call

/-- A function to which calls that are alike are the same. -/
def IsStrict (f : Call → Result Value) : Prop := ∀ ⦃c d : Call⦄, c.Alike d → f c = f d

theorem isStrict_callLibrary (f : List Value → Except String Value) : IsStrict (callLibrary f) := by
  intro c d h
  simp only [callLibrary, h.arguments, h.receiver, h.refuse]

theorem isStrict_size : IsStrict size := by
  intro c d h
  simp only [size, h.target, h.refuse]

theorem isStrict_contains : IsStrict contains := by
  intro c d h
  simp only [contains, h.target, h.argument]

theorem isStrict_stringTest (p : List Char → List Char → Bool) : IsStrict (stringTest p) := by
  intro c d h
  simp only [stringTest, h.stringTarget, h.stringArgument]

theorem isStrict_matchesPattern : IsStrict matchesPattern := by
  intro c d h
  simp only [matchesPattern, h.stringTarget, h.stringArgument, h.refuse]

theorem isStrict_has : IsStrict has := by
  intro c d h
  simp only [has, h.argument]

theorem isStrict_extremeOf (beyond : Ordering) : IsStrict (extremeOf beyond) := by
  intro c d h
  simp only [extremeOf, h.arguments]

theorem isStrict_stringOf : IsStrict stringOf := by
  intro c d h
  simp only [stringOf, h.target, h.refuse]

theorem isStrict_bytesOf : IsStrict bytesOf := by
  intro c d h
  simp only [bytesOf, h.stringArgument]

theorem isStrict_doubleOf : IsStrict doubleOf := by
  intro c d h
  simp only [doubleOf, h.target, h.refuse]

theorem isStrict_intOf : IsStrict intOf := by
  intro c d h
  simp only [intOf, h.target, h.refuse]

theorem isStrict_uintOf : IsStrict uintOf := by
  intro c d h
  simp only [uintOf, h.target, h.refuse]

theorem isStrict_durationOf : IsStrict durationOf := by
  intro c d h
  simp only [durationOf, h.stringArgument, h.refuse]

theorem isStrict_timestampOf : IsStrict timestampOf := by
  intro c d h
  simp only [timestampOf, h.stringArgument, h.refuse]

theorem isStrict_timeField (field : Time.Timestamp → Int) : IsStrict (timeField field) := by
  intro c d h
  simp only [timeField, h.target]

/-- The functions with a loop variable. -/
def loopNames : List String := ["map", "filter", "all", "exists", "exists_one"]

/-- Only functions with a loop variable evaluate an argument in another scope than that of the
call. -/
theorem isStrict_of_builtin? {name : String} {f : Call → Result Value} (h : builtin? name = some f)
    (hname : name ∉ loopNames) : IsStrict f := by
  unfold builtin? at h
  split at h
  case h_1 => exact Option.some.inj h ▸ isStrict_contains
  case h_2 => exact Option.some.inj h ▸ isStrict_size
  case h_3 => exact Option.some.inj h ▸ isStrict_has
  case h_9 => exact Option.some.inj h ▸ isStrict_extremeOf .gt
  case h_10 => exact Option.some.inj h ▸ isStrict_extremeOf .lt
  case h_11 => exact Option.some.inj h ▸ isStrict_stringTest Text.startsWith
  case h_12 => exact Option.some.inj h ▸ isStrict_stringTest Text.endsWith
  case h_13 => exact Option.some.inj h ▸ isStrict_matchesPattern
  case h_14 => exact Option.some.inj h ▸ isStrict_stringOf
  case h_15 => exact Option.some.inj h ▸ isStrict_bytesOf
  case h_16 => exact Option.some.inj h ▸ isStrict_doubleOf
  case h_17 => exact Option.some.inj h ▸ isStrict_intOf
  case h_18 => exact Option.some.inj h ▸ isStrict_uintOf
  case h_19 => exact Option.some.inj h ▸ isStrict_durationOf
  case h_20 => exact Option.some.inj h ▸ isStrict_timestampOf
  case h_21 =>
    obtain ⟨field, -, he⟩ := Option.map_eq_some_iff.mp h
    exact he ▸ isStrict_timeField field
  all_goals exact absurd (by decide) hname

/-- The functions with a loop variable are loops over the same reading of target, variable and
body. -/
theorem withLoop_of_builtin? {name : String} {f : Call → Result Value} (h : builtin? name = some f)
    (hname : name ∈ loopNames) : ∃ work, f = withLoop work := by
  simp only [loopNames, List.mem_cons, List.not_mem_nil, or_false] at hname
  obtain rfl | rfl | rfl | rfl | rfl := hname
  · exact ⟨mapLoop, (Option.some.inj h).symm⟩
  · exact ⟨filterLoop, (Option.some.inj h).symm⟩
  · exact ⟨allLoop, (Option.some.inj h).symm⟩
  · exact ⟨existsLoop, (Option.some.inj h).symm⟩
  · exact ⟨existsOneLoop, (Option.some.inj h).symm⟩

end ClaimMapping.Expression
