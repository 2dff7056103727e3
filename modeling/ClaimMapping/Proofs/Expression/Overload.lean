import ClaimMapping.Expression.Environment
import ClaimMapping.Proofs.Expression.Call
import ClaimMapping.Proofs.Journal.Outcome

namespace ClaimMapping.Expression

open Journal (bind_eq_ok_iff mapError_eq_ok_iff mapM_eq_ok_iff)

/-- The arguments that a function takes, and the value it gives for them. -/
inductive Overload : String → List Value → Value → Prop where
  | extract (source template : String) :
    Overload "extract" [.string source, .string template]
      (.string (Template.extract source template))
  | split (source separator : String) :
    Overload "split" [.string source, .string separator]
      (.list ((Text.split source separator (-1)).map .string))
  | splitAtMost (source separator : String) (limit : Int64) :
    Overload "split" [.string source, .string separator, .int limit]
      (.list ((Text.split source separator limit.toInt).map .string))
  | join (parts : List String) :
    Overload "join" [.list (parts.map .string)] (.string (Text.join parts ""))
  | joinWith (parts : List String) (separator : String) :
    Overload "join" [.list (parts.map .string), .string separator]
      (.string (Text.join parts separator))

namespace Function

theorem callExtract_eq_ok_iff {vs : List Value} {v : Value} :
    callExtract vs = .ok v ↔ Overload "extract" vs v := by
  constructor
  · intro h
    unfold callExtract at h
    split at h
    case h_1 =>
      cases h
      exact .extract _ _
    case h_2 => cases h
  · intro h
    generalize hname : "extract" = name at h
    cases h with
    | extract => rfl
    | _ => exact absurd hname (by decide)

theorem callSplit_eq_ok_iff {vs : List Value} {v : Value} :
    callSplit vs = .ok v ↔ Overload "split" vs v := by
  constructor
  · intro h
    unfold callSplit at h
    split at h
    case h_1 =>
      cases h
      exact .split _ _
    case h_2 =>
      cases h
      exact .splitAtMost _ _ _
    case h_3 => cases h
  · intro h
    generalize hname : "split" = name at h
    cases h with
    | split => rfl
    | splitAtMost => rfl
    | _ => exact absurd hname (by decide)

theorem stringItem_eq_ok_iff {v : Value} {s : String} : stringItem v = .ok s ↔ v = .string s := by
  cases v <;> simp [stringItem]

theorem mapM_stringItem_eq_ok_iff {items : List Value} {parts : List String} :
    items.mapM stringItem = .ok parts ↔ items = parts.map .string := by
  rw [mapM_eq_ok_iff]
  simp only [stringItem_eq_ok_iff]
  rw [← List.forall₂_eq_eq_eq, List.forall₂_map_right_iff]

theorem joinItems_eq_ok_iff {items : List Value} {separator : String} {v : Value} :
    joinItems items separator = .ok v ↔
      ∃ parts : List String,
        items = parts.map .string ∧ v = .string (Text.join parts separator) := by
  rw [joinItems, bind_eq_ok_iff]
  simp only [mapM_stringItem_eq_ok_iff]
  constructor
  · intro h
    obtain ⟨parts, hparts, hv⟩ := h
    cases hv
    exact ⟨parts, hparts, rfl⟩
  · intro h
    obtain ⟨parts, hparts, rfl⟩ := h
    exact ⟨parts, hparts, rfl⟩

theorem callJoin_eq_ok_iff {vs : List Value} {v : Value} :
    callJoin vs = .ok v ↔ Overload "join" vs v := by
  constructor
  · intro h
    unfold callJoin at h
    split at h
    case h_1 =>
      obtain ⟨parts, rfl, rfl⟩ := joinItems_eq_ok_iff.mp h
      exact .join parts
    case h_2 =>
      obtain ⟨parts, rfl, rfl⟩ := joinItems_eq_ok_iff.mp h
      exact .joinWith parts _
    case h_3 => cases h
  · intro h
    generalize hname : "join" = name at h
    cases h with
    | join parts => exact joinItems_eq_ok_iff.mpr ⟨parts, rfl, rfl⟩
    | joinWith parts => exact joinItems_eq_ok_iff.mpr ⟨parts, rfl, rfl⟩
    | _ => exact absurd hname (by decide)

/-- A function of the standard library gives a result exactly for the arguments of its overloads. -/
theorem call_eq_ok_iff {f : Function} (hf : f ∈ Library.standardFunctions) {vs : List Value}
    {v : Value} : f.call vs = .ok v ↔ Overload f.name vs v := by
  simp only [Library.standardFunctions, List.mem_cons, List.not_mem_nil, or_false] at hf
  obtain rfl | rfl | rfl := hf
  · exact callExtract_eq_ok_iff
  · exact callJoin_eq_ok_iff
  · exact callSplit_eq_ok_iff

end Function

section

variable {l : Library} {name : String} {f : List Value → Except String Value}

/-- What a call of a function of the library gives, once its arguments have values. -/
def libraryResult (name : String) (f : List Value → Except String Value) (vs : List Value) :
    Result Value :=
  match f vs with
  | .ok v => .ok v
  | .error reason => fail (.function name reason)

theorem mapM_delayAll (l : Library) (es : List Expr) (scope : Scope) :
    (delayAll l es).mapM (fun a => a.run scope) = es.mapM fun e => eval l e scope := by
  induction es with
  | nil => rw [delayAll]; rfl
  | cons e es ih => rw [delayAll, List.mapM_cons, List.mapM_cons, ih]

/-- A library goes before the functions that are always there, and evaluates all arguments first. -/
theorem eval_call_of_library (h : KeyMap.get? l name = some f) (es : List Expr) (scope : Scope) :
    eval l (.call name es) scope =
      (es.mapM fun e => eval l e scope) >>= libraryResult name f := by
  rw [eval, function, function?, h, ← mapM_delayAll]
  rfl

theorem eval_callOn_of_library (h : KeyMap.get? l name = some f) (e : Expr) (es : List Expr)
    (scope : Scope) :
    eval l (.callOn name e es) scope =
      eval l e scope >>= fun v =>
        (es.mapM fun e => eval l e scope) >>= fun vs => libraryResult name f (v :: vs) := by
  rw [eval, function, function?, h, ← mapM_delayAll]
  rfl

/-- A receiver is the first argument. -/
theorem eval_callOn_eq_call (h : KeyMap.get? l name = some f) (e : Expr) (es : List Expr)
    (scope : Scope) : eval l (.callOn name e es) scope = eval l (.call name (e :: es)) scope := by
  rw [eval_callOn_of_library h, eval_call_of_library h, List.mapM_cons]
  simp only [bind_assoc, pure_bind]

end

namespace Environment

theorem evaluate_eq_ok_iff {env : Environment} {b : Bindings} {e : Expr} {v : Value} :
    env.evaluate e b = .ok v ↔
      ∃ scope, env.scope b = .ok scope ∧ eval env.library e scope = .ok v := by
  rw [evaluate]
  cases env.scope b with
  | error e => simp
  | ok scope => simp [mapError_eq_ok_iff]

/-- A function of the library over values. -/
theorem evaluate_call_of_values {env : Environment} {name : String}
    {f : List Value → Except String Value} (h : KeyMap.get? env.library name = some f)
    {b : Bindings} {scope : Scope} (hb : env.scope b = .ok scope) {es : List Expr} {vs : List Value}
    (hvs : List.Forall₂ (fun e v => env.evaluate e b = .ok v) es vs) :
    env.evaluate (.call name es) b = (libraryResult name f vs).mapError .ofFailure := by
  have hes : (es.mapM fun e => eval env.library e scope) = .ok vs := by
    refine mapM_eq_ok_iff.mpr (hvs.imp fun e v he => ?_)
    obtain ⟨scope', hb', he⟩ := evaluate_eq_ok_iff.mp he
    cases hb.symm.trans hb'
    exact he
  rw [evaluate, hb]
  dsimp only
  rw [eval_call_of_library h, hes]
  rfl

/-- The receiver of a call is its first argument. -/
theorem evaluate_callOn_eq_call {env : Environment} {name : String}
    {f : List Value → Except String Value} (h : KeyMap.get? env.library name = some f) (e : Expr)
    (es : List Expr) (b : Bindings) :
    env.evaluate (.callOn name e es) b = env.evaluate (.call name (e :: es)) b := by
  rw [evaluate, evaluate]
  cases env.scope b with
  | error defect => rfl
  | ok scope =>
    dsimp only
    rw [eval_callOn_eq_call h]

/-- A standard function over values gives what an overload gives, and without one it fails. -/
theorem evaluate_call_standard {env : Environment} {f : Function}
    (hf : f ∈ Library.standardFunctions) (hl : KeyMap.get? env.library f.name = some f.call)
    {b : Bindings} {scope : Scope} (hb : env.scope b = .ok scope) {es : List Expr} {vs : List Value}
    (hvs : List.Forall₂ (fun e v => env.evaluate e b = .ok v) es vs) :
    (∀ v, env.evaluate (.call f.name es) b = .ok v ↔ Overload f.name vs v) ∧
      ((∀ v, ¬ Overload f.name vs v) → ∃ reason,
        env.evaluate (.call f.name es) b =
          .error (.error (.execute (.function f.name reason)))) := by
  rw [evaluate_call_of_values hl hb hvs]
  have hcall (v : Value) : f.call vs = .ok v ↔ Overload f.name vs v := Function.call_eq_ok_iff hf
  simp only [← hcall, libraryResult]
  cases f.call vs with
  | ok w =>
    refine ⟨fun v => ?_, fun h => absurd rfl (h w)⟩
    show Except.ok w = .ok v ↔ Except.ok w = .ok v
    rw [Except.ok.injEq, Except.ok.injEq]
  | error reason => exact ⟨fun v => iff_of_false nofun nofun, fun _ => ⟨reason, rfl⟩⟩

end Environment

/-- A call with a receiver is the call with the receiver as first argument, whatever comes of the
two. Over values it gives what an overload of the function gives, and without an overload, as
without any argument, it is an error of the function. -/
theorem evaluate_standard (env : Environment) {f : Function}
    (hf : f ∈ Library.standardFunctions) (hl : KeyMap.get? env.library f.name = some f.call)
    (e : Expr) (es : List Expr) (b : Bindings) :
    env.evaluate (.callOn f.name e es) b = env.evaluate (.call f.name (e :: es)) b ∧
    (∀ vs, List.Forall₂ (fun e v => env.evaluate e b = .ok v) (e :: es) vs →
      (∀ v, env.evaluate (.call f.name (e :: es)) b = .ok v ↔ Overload f.name vs v) ∧
      ((∀ v, ¬ Overload f.name vs v) → ∃ reason,
        env.evaluate (.call f.name (e :: es)) b =
          .error (.error (.execute (.function f.name reason))))) ∧
    ∀ scope, env.scope b = .ok scope → ∃ reason,
      env.evaluate (.call f.name []) b =
        .error (.error (.execute (.function f.name reason))) := by
  refine ⟨Environment.evaluate_callOn_eq_call hl e es b, fun vs hvs => ?values,
    fun scope hb => ?nothing⟩
  case values =>
    obtain ⟨v, _, hv, -, -⟩ := List.forall₂_cons_left_iff.mp hvs
    obtain ⟨scope, hb, -⟩ := Environment.evaluate_eq_ok_iff.mp hv
    exact Environment.evaluate_call_standard hf hl hb hvs
  case nothing =>
    refine (Environment.evaluate_call_standard hf hl hb .nil).2 fun v h => ?_
    generalize f.name = name at h
    cases h

/-- A call of `split` with a text, a comma and a limit. -/
def splitCall (limit : Literal) : Expr :=
  .callOn "split" (.literal (.string "a,b,c")) [.literal (.string ","), .literal limit]

/-- A limit is a signed number; an unsigned one is no limit. -/
theorem evaluate_splitCall :
    KeyMap.get? Library.standard "split" = some Function.split.call ∧
    Environment.evaluate ⟨[], .standard⟩ (splitCall (.int 2)) [] =
      .ok (.list [.string "a", .string "b,c"]) ∧
    ∃ reason, Environment.evaluate ⟨[], .standard⟩ (splitCall (.uint 2)) [] =
      .error (.error (.execute (.function "split" reason))) := by
  have hget : KeyMap.get? Library.standard "split" = some Function.split.call := rfl
  have hmem : Function.split ∈ Library.standardFunctions := by simp [Library.standardFunctions]
  have hvalues (limit : Literal) : List.Forall₂
      (fun e v => Environment.evaluate ⟨[], .standard⟩ e [] = .ok v)
      [.literal (.string "a,b,c"), .literal (.string ","), .literal limit]
      [.string "a,b,c", .string ",", .ofLiteral limit] :=
    .cons rfl (.cons rfl (.cons rfl .nil))
  have hstandard (limit : Literal) := evaluate_standard ⟨[], .standard⟩ hmem hget
    (.literal (.string "a,b,c")) [.literal (.string ","), .literal limit] []
  refine ⟨hget, ?_, ?_⟩
  · obtain ⟨hforms, hcall, -⟩ := hstandard (.int 2)
    obtain ⟨hvalue, -⟩ := hcall _ (hvalues (.int 2))
    have hparts : Text.split "a,b,c" "," (2 : Int64).toInt = ["a", "b,c"] := by decide +kernel
    have hoverload := Overload.splitAtMost "a,b,c" "," 2
    rw [hparts] at hoverload
    exact hforms.trans ((hvalue _).mpr hoverload)
  · obtain ⟨hforms, hcall, -⟩ := hstandard (.uint 2)
    obtain ⟨-, hno⟩ := hcall _ (hvalues (.uint 2))
    have hnone : ∀ v, ¬ Overload "split" [.string "a,b,c", .string ",", .uint 2] v := by
      intro v h
      cases Function.callSplit_eq_ok_iff.mpr h
    obtain ⟨reason, he⟩ := hno hnone
    exact ⟨reason, hforms.trans he⟩

end ClaimMapping.Expression
