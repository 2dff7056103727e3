import ClaimMapping.Expression.Environment
import ClaimMapping.Proofs.Expression.Call
import ClaimMapping.Proofs.KeyMap.Lookup

namespace ClaimMapping.Expression

/-- A name with a loop variable behind it; a function of the library takes the name away. -/
def isLoop (l : Library) (name : String) : Bool :=
  (KeyMap.get? l name).isNone && loopNames.contains name

mutual

/-- The variables whose values may count. Fields of an object with a type are never evaluated. -/
def reads (l : Library) : Expr → List String
  | .literal _ => []
  | .name x => [x]
  | .list items => readsAll l items
  | .map entries => readsEntries l entries
  | .unary _ e => reads l e
  | .arithmetic _ a b => reads l a ++ reads l b
  | .relation _ a b => reads l a ++ reads l b
  | .and a b => reads l a ++ reads l b
  | .or a b => reads l a ++ reads l b
  | .conditional test yes no => reads l test ++ reads l yes ++ reads l no
  | .member e _ => reads l e
  | .index e i => reads l e ++ reads l i
  | .construct e _ => reads l e
  | .call f args => if isLoop l f then readsTarget l args else readsAll l args
  | .callOn f e args => reads l e ++ if isLoop l f then readsBody l args else readsAll l args

def readsAll (l : Library) : List Expr → List String
  | [] => []
  | e :: es => reads l e ++ readsAll l es

def readsEntries (l : Library) : List (Expr × Expr) → List String
  | [] => []
  | (k, e) :: entries => reads l k ++ reads l e ++ readsEntries l entries

/-- The arguments of a loop without a receiver: the target in front. -/
def readsTarget (l : Library) : List Expr → List String
  | [] => []
  | e :: args => reads l e ++ readsBody l args

/-- The loop variable and the body; what stands behind them is not evaluated. -/
def readsBody (l : Library) : List Expr → List String
  | .name x :: body :: _ => (reads l body).filter (· != x)
  | _ => []

end

/-- Each of the variables has the same value in both scopes, or none in both. -/
def AgreeOn (vars : List String) (s t : Scope) : Prop := ∀ x ∈ vars, s.lookup x = t.lookup x

variable {vars more : List String} {s t : Scope}

theorem AgreeOn.left (h : AgreeOn (vars ++ more) s t) : AgreeOn vars s t :=
  fun x hx => h x (List.mem_append_left _ hx)

theorem AgreeOn.right (h : AgreeOn (vars ++ more) s t) : AgreeOn more s t :=
  fun x hx => h x (List.mem_append_right _ hx)

/-- Scopes that agree on everything but a loop variable agree on all once it is bound. -/
theorem AgreeOn.bind {x : String} (h : AgreeOn (vars.filter (· != x)) s t) (v : Value) :
    AgreeOn vars ((x, v) :: s) ((x, v) :: t) := by
  intro y hy
  rw [List.lookup_cons, List.lookup_cons]
  by_cases hyx : y = x
  · rw [hyx, beq_self_eq_true]
  · rw [beq_eq_false_iff_ne.mpr hyx]
    exact h y (List.mem_filter.mpr ⟨hy, bne_iff_ne.mpr hyx⟩)

/-- Two calls are the same to a function: as loops if it has a loop variable, by what their
arguments give if it has none. -/
theorem function_congr {l : Library} {name : String} {f : Call → Result Value}
    (hf : function? l name = some f) {c d : Call}
    (hloop : isLoop l name = true → ∀ work, withLoop work c = withLoop work d)
    (halike : isLoop l name ≠ true → c.Alike d) : f c = f d := by
  cases hg : KeyMap.get? l name with
  | some g =>
    have hl : isLoop l name ≠ true := by
      rw [isLoop, hg]
      exact Bool.false_ne_true
    rw [function?, hg] at hf
    cases hf
    exact isStrict_callLibrary g (halike hl)
  | none =>
    have hl : isLoop l name = true ↔ name ∈ loopNames := by
      rw [isLoop, hg, Option.isNone_none, Bool.true_and, List.contains_iff_mem]
    rw [function?, hg] at hf
    by_cases hname : name ∈ loopNames
    · obtain ⟨work, rfl⟩ := withLoop_of_builtin? hf hname
      exact hloop (hl.mpr hname) work
    · exact isStrict_of_builtin? hf hname (halike fun h => hname (hl.mp h))

/-- Without a receiver the first argument takes its place. -/
theorem withLoop_standIn (work : (Value → Result Value) → Value → Result Value) (name : String)
    (a : Delayed) (args : List Delayed) (s : Scope) :
    withLoop work ⟨name, none, a :: args, s⟩ =
      Call.standIn ⟨name, none, a :: args, s⟩ >>= fun v =>
        withLoop work ⟨name, some v, args, s⟩ := by
  rw [withLoop, Call.target]
  cases Call.standIn ⟨name, none, a :: args, s⟩ <;> rfl

mutual

/-- An expression cannot tell scopes apart that agree on what it reads. -/
theorem eval_congr (l : Library) (e : Expr) {s t : Scope} (h : AgreeOn (reads l e) s t) :
    eval l e s = eval l e t := by
  match e with
  | .literal c => rfl
  | .name x =>
    have hx : s.lookup x = t.lookup x := h x (by rw [reads]; exact List.mem_singleton.mpr rfl)
    rw [eval, eval, variableOf, variableOf, hx]
  | .list items =>
    rw [reads] at h
    rw [eval, eval, evalItems_congr l items h]
  | .map entries =>
    rw [reads] at h
    rw [eval, eval, evalEntries_congr l entries h]
  | .unary op e =>
    rw [reads] at h
    rw [eval, eval, eval_congr l e h]
  | .arithmetic op a b =>
    rw [reads] at h
    rw [eval, eval, eval_congr l a h.left, eval_congr l b h.right]
  | .relation op a b =>
    rw [reads] at h
    rw [eval, eval, eval_congr l a h.left, eval_congr l b h.right]
  | .and a b =>
    rw [reads] at h
    rw [eval, eval, eval_congr l a h.left, eval_congr l b h.right]
  | .or a b =>
    rw [reads] at h
    rw [eval, eval, eval_congr l a h.left, eval_congr l b h.right]
  | .conditional test yes no =>
    rw [reads] at h
    rw [eval, eval, eval_congr l test h.left.left, eval_congr l yes h.left.right,
      eval_congr l no h.right]
  | .member e field =>
    rw [reads] at h
    rw [eval, eval, eval_congr l e h]
  | .index e i =>
    rw [reads] at h
    rw [eval, eval, eval_congr l e h.left, eval_congr l i h.right]
  | .construct e fields =>
    rw [reads] at h
    rw [eval, eval, eval_congr l e h]
  | .call name args =>
    rw [reads] at h
    rw [eval, eval, function]
    cases hf : function? l name with
    | none => rfl
    | some f =>
      show f ⟨name, none, delayAll l args, s⟩ = f ⟨name, none, delayAll l args, t⟩
      apply function_congr hf
      · intro hl
        rw [if_pos hl] at h
        exact fun work => withTarget_congr l args h work name
      · intro hl
        rw [if_neg hl] at h
        exact ⟨rfl, rfl, outcomes_congr l args h⟩
  | .callOn name e args =>
    rw [reads] at h
    rw [eval, eval, function, eval_congr l e h.left]
    cases hf : function? l name with
    | none => rfl
    | some f =>
      refine congrArg (eval l e t >>= ·) (funext fun v => ?_)
      show f ⟨name, some v, delayAll l args, s⟩ = f ⟨name, some v, delayAll l args, t⟩
      have hargs := h.right
      apply function_congr hf
      · intro hl
        rw [if_pos hl] at hargs
        exact fun work => withBody_congr l args hargs work name v
      · intro hl
        rw [if_neg hl] at hargs
        exact ⟨rfl, rfl, outcomes_congr l args hargs⟩

theorem evalItems_congr (l : Library) (es : List Expr) {s t : Scope}
    (h : AgreeOn (readsAll l es) s t) : evalItems l es s = evalItems l es t := by
  match es with
  | [] => rfl
  | e :: es =>
    rw [readsAll] at h
    rw [evalItems, evalItems, eval_congr l e h.left, evalItems_congr l es h.right]

theorem evalEntries_congr (l : Library) (entries : List (Expr × Expr)) {s t : Scope}
    (h : AgreeOn (readsEntries l entries) s t) (done : Entries) :
    evalEntries l entries s done = evalEntries l entries t done := by
  match entries with
  | [] => rfl
  | (k, e) :: entries =>
    rw [readsEntries] at h
    rw [evalEntries, evalEntries, eval_congr l k h.left.left, eval_congr l e h.left.right]
    simp only [evalEntries_congr l entries h.right]

theorem outcomes_congr (l : Library) (es : List Expr) {s t : Scope}
    (h : AgreeOn (readsAll l es) s t) :
    (delayAll l es).map (fun a => a.run s) = (delayAll l es).map fun a => a.run t := by
  match es with
  | [] => rfl
  | e :: es =>
    rw [readsAll] at h
    rw [delayAll, List.map_cons, List.map_cons, outcomes_congr l es h.right]
    exact congrArg (· :: _) (eval_congr l e h.left)

theorem withTarget_congr (l : Library) (args : List Expr) {s t : Scope}
    (h : AgreeOn (readsTarget l args) s t)
    (work : (Value → Result Value) → Value → Result Value) (name : String) :
    withLoop work ⟨name, none, delayAll l args, s⟩ =
      withLoop work ⟨name, none, delayAll l args, t⟩ := by
  match args with
  | [] => rfl
  | e :: args =>
    rw [readsTarget] at h
    have hstand (u : Scope) : Call.standIn ⟨name, none, delayAll l (e :: args), u⟩ =
        match eval l e u with
        | .error (.fault _) => fail .missingTarget
        | outcome => outcome := rfl
    rw [delayAll, withLoop_standIn, withLoop_standIn, ← delayAll, hstand, hstand,
      eval_congr l e h.left]
    simp only [withBody_congr l args h.right]

theorem withBody_congr (l : Library) (args : List Expr) {s t : Scope}
    (h : AgreeOn (readsBody l args) s t)
    (work : (Value → Result Value) → Value → Result Value) (name : String) (v : Value) :
    withLoop work ⟨name, some v, delayAll l args, s⟩ =
      withLoop work ⟨name, some v, delayAll l args, t⟩ := by
  cases args with
  | nil => rfl
  | cons e args =>
    cases e with
    | name x =>
      cases args with
      | nil => rfl
      | cons body args =>
        rw [readsBody] at h
        have hbody : (fun element => eval l body ((x, element) :: s)) =
            fun element => eval l body ((x, element) :: t) :=
          funext fun element => eval_congr l body (h.bind element)
        show work (fun element => eval l body ((x, element) :: s)) v =
          work (fun element => eval l body ((x, element) :: t)) v
        rw [hbody]
    | _ => rfl

end

namespace Environment

theorem eq_ofJson_of_valueOf {b : Bindings} {d : Declaration} {j : Json}
    (hb : KeyMap.get? b d.name = some j) {v : Value} (hv : valueOf b d = .ok v) :
    v = .ofJson j := by
  unfold valueOf at hv
  rw [hb] at hv
  cases hs : d.schema with
  | none =>
    rw [hs] at hv
    exact (Except.ok.inj hv).symm
  | some schema =>
    rw [hs] at hv
    dsimp only at hv
    split_ifs at hv
    exact (Except.ok.inj hv).symm

/-- A bound variable has the value that it is bound to, through all declarations. -/
theorem lookup_bindAll {b : Bindings} {x : String} {j : Json} (hb : KeyMap.get? b x = some j)
    {ds : List Declaration} (hds : ∀ d ∈ ds, ∃ v, valueOf b d = .ok v) {scope : Scope}
    (hx : (∃ d ∈ ds, d.name = x) ∨ scope.lookup x = some (.ofJson j)) :
    ∃ s, bindAll b ds scope = .ok s ∧ s.lookup x = some (.ofJson j) := by
  induction ds generalizing scope with
  | nil =>
    obtain ⟨d, hd, -⟩ | hx := hx
    · cases hd
    · exact ⟨scope, rfl, hx⟩
  | cons d ds ih =>
    obtain ⟨⟨v, hv⟩, hds⟩ := List.forall_mem_cons.mp hds
    rw [bindAll, hv]
    refine ih hds ?_
    rw [List.lookup_cons]
    by_cases hd : d.name = x
    · right
      rw [hd, beq_self_eq_true]
      rw [eq_ofJson_of_valueOf (hd ▸ hb) hv]
    · rw [beq_eq_false_iff_ne.mpr (Ne.symm hd)]
      refine hx.imp_left ?_
      intro h
      obtain ⟨d', hd', hname⟩ := h
      obtain rfl | hd' := List.mem_cons.mp hd'
      · exact absurd hname hd
      · exact ⟨d', hd', hname⟩

/-- A single variable that holds an object, where it is declared. -/
theorem lookup_scope_object {env : Environment} {x : String}
    (hx : ∃ d ∈ env.declarations, d.name = x) (members : KeyMap Json) :
    ∃ s, env.scope [(x, .object members)] = .ok s ∧
      s.lookup x = some (.ofJson (.object members)) := by
  have hdeclares : env.declares x = true := by
    obtain ⟨d, hd, hname⟩ := hx
    exact List.any_eq_true.mpr ⟨d, hd, beq_iff_eq.mpr hname⟩
  have hfind : (KeyMap.keys [(x, Json.object members)]).find? (fun name => !env.declares name) =
      none := by
    rw [KeyMap.keys_cons, List.find?_cons, hdeclares]
    rfl
  rw [scope, hfind]
  refine lookup_bindAll (KeyMap.get?_cons_self _ _ _) (fun d _ => ?_) (.inl hx)
  unfold valueOf
  by_cases hd : d.name = x
  · rw [hd, KeyMap.get?_cons_self]
    cases d.schema with
    | none => exact ⟨_, rfl⟩
    | some schema => exact ⟨_, rfl⟩
  · rw [KeyMap.get?_cons_of_ne hd]
    exact ⟨_, rfl⟩

end Environment

end ClaimMapping.Expression
