import ClaimMapping.Proofs.Expression.Tame

namespace ClaimMapping.Expression

open Journal (Avoids avoids_ok)

/-- A call with its target, the receiver or else the first argument, and what follows. -/
inductive Invokes (f : String) (target : Expr) (args : List Expr) : Expr → Prop where
  | call : Invokes f target args (.call f (target :: args))
  | callOn : Invokes f target args (.callOn f target args)

/-- No loop variable, or none with a body behind it. -/
def LacksBody (args : List Expr) : Prop := args = [] ∨ ∃ x, args = [.name x]

/-- The expressions that have no value and no fault in a scope, although their parts have values. -/
inductive Breaks (l : Library) : Expr → Scope → Prop where
  | quotient {op : Arithmetic} {a b : Expr} {s : Scope} {x y : Value} (hop : op.divides = true)
    (ha : eval l a s = .ok x) (hb : eval l b s = .ok y) (h : NoQuotient x y) :
    Breaks l (.arithmetic op a b) s
  | loop {f : String} {target e : Expr} {args : List Expr} {s : Scope} {v : Value}
    (hf : isLoop l f = true) (he : Invokes f target args e) (hv : eval l target s = .ok v)
    (h : LacksBody args) : Breaks l e s
  | search {target part e : Expr} {more : List Expr} {s : Scope} {bs : List UInt8}
    (hf : KeyMap.get? l "contains" = none) (he : Invokes "contains" target (part :: more) e)
    (ht : eval l target s = .ok (.bytes bs)) (hp : eval l part s = .ok (.bytes [])) : Breaks l e s

/-- The expressions right inside another one that are evaluated in its own scope, unless a fault
comes first. -/
def Expr.operands (l : Library) : Expr → List Expr
  | .literal _ => []
  | .name _ => []
  | .list items => items
  | .map entries => entries.flatMap fun e => [e.1, e.2]
  | .unary _ e => [e]
  | .arithmetic _ a b => [a, b]
  | .relation _ a b => [a, b]
  | .and a _ => [a]
  | .or a _ => [a]
  | .conditional test _ _ => [test]
  | .member e _ => [e]
  | .index e i => [e, i]
  | .construct e _ => [e]
  | .call f args => if isLoop l f then args.take 1 else args
  | .callOn f e args => if isLoop l f then [e] else e :: args

/-- Where the evaluation of an expression in a scope can come to. -/
inductive Reaches (l : Library) (x : Expr) (t : Scope) : Expr → Scope → Prop where
  | here : Reaches l x t x t
  | operand {c e : Expr} {s : Scope} (hc : c ∈ e.operands l) (h : Reaches l x t c s) :
    Reaches l x t e s
  | and {a b : Expr} {s : Scope} {v : Value} (ha : eval l a s = .ok v) (hv : v.isTrue = true)
    (h : Reaches l x t b s) : Reaches l x t (.and a b) s
  | or {a b : Expr} {s : Scope} {v : Value} (ha : eval l a s = .ok v) (hv : v.isTrue ≠ true)
    (h : Reaches l x t b s) : Reaches l x t (.or a b) s
  | yes {test yes no : Expr} {s : Scope} {v : Value} (ht : eval l test s = .ok v)
    (hv : v.isTrue = true) (h : Reaches l x t yes s) : Reaches l x t (.conditional test yes no) s
  | no {test yes no : Expr} {s : Scope} {v : Value} (ht : eval l test s = .ok v)
    (hv : v.isTrue ≠ true) (h : Reaches l x t no s) : Reaches l x t (.conditional test yes no) s
  | body {f y : String} {target body e : Expr} {more : List Expr} {s : Scope} {w v : Value}
    {vs : List Value} (hf : isLoop l f = true)
    (he : Invokes f target (.name y :: body :: more) e) (hw : eval l target s = .ok w)
    (hvs : elements w = .ok vs) (hv : v ∈ vs) (h : Reaches l x t body ((y, v) :: s)) :
    Reaches l x t e s

/-- No break is reached. -/
def Unbroken (l : Library) (e : Expr) (s : Scope) : Prop :=
  ∀ x t, Reaches l x t e s → ¬ Breaks l x t

namespace Unbroken

variable {l : Library} {c e : Expr} {s t : Scope}

theorem here (h : Unbroken l e s) : ¬ Breaks l e s := h e s .here

theorem inside (h : Unbroken l e s) (hc : ∀ x u, Reaches l x u c t → Reaches l x u e s) :
    Unbroken l c t := fun x u hr => h x u (hc x u hr)

theorem operand (h : Unbroken l e s) (hc : c ∈ e.operands l) : Unbroken l c s :=
  h.inside fun _ _ => .operand hc

end Unbroken

section

variable {l : Library} {name : String} {es : List Expr} {s : Scope} {v : Value}

theorem getElem?_delayAll (i : Nat) :
    (delayAll l es)[i]? = es[i]?.map fun e => ⟨e, fun s => eval l e s⟩ := by
  induction es generalizing i with
  | nil => rfl
  | cons e es ih =>
    cases i with
    | zero => rfl
    | succ i => rw [delayAll, List.getElem?_cons_succ, List.getElem?_cons_succ, ih]

theorem argument_delayAll {r : Option Value} {i : Nat}
    (h : Call.argument ⟨name, r, delayAll l es, s⟩ i = .ok v) :
    ∃ e, es[i]? = some e ∧ eval l e s = .ok v := by
  rw [Call.argument, getElem?_delayAll] at h
  cases he : es[i]? with
  | none =>
    rw [he] at h
    cases h
  | some e =>
    rw [he] at h
    exact ⟨e, rfl, h⟩

/-- A call without a receiver takes the value of its first argument for it. -/
theorem standIn_delayAll (h : Call.standIn ⟨name, none, delayAll l es, s⟩ = .ok v) :
    ∃ target args, es = target :: args ∧ eval l target s = .ok v := by
  cases es with
  | nil => cases h
  | cons e es =>
    refine ⟨e, es, rfl, ?_⟩
    rw [delayAll, Call.standIn] at h
    dsimp only [List.head?_cons] at h
    split at h
    · cases h
    · exact h

/-- What a function sees of a call whose target has a value. -/
theorem Invokes.eval_eq {target e : Expr} {args : List Expr} (he : Invokes name target args e)
    {f : Call → Result Value} (hf : function? l name = some f) (hv : eval l target s = .ok v) :
    ∃ c next, eval l e s = f c ∧ c.scope = s ∧ c.target = .ok (v, next) ∧
      ∀ i, c.args[next + i]? = args[i]?.map fun e => ⟨e, fun s => eval l e s⟩ := by
  cases he with
  | call =>
    refine ⟨⟨name, none, delayAll l (target :: args), s⟩, 1, ?_, rfl, ?_, fun i => ?_⟩
    · rw [eval, function, hf]
      rfl
    · rw [Call.target, delayAll, Call.standIn]
      simp only [List.head?_cons, hv]
      rfl
    · rw [getElem?_delayAll, Nat.add_comm, List.getElem?_cons_succ]
  | callOn =>
    refine ⟨⟨name, some v, delayAll l args, s⟩, 0, ?_, rfl, rfl, fun i => ?_⟩
    · rw [eval, function, hf, hv]
      rfl
    · rw [getElem?_delayAll, Nat.zero_add]

theorem Breaks.of_callOn {e : Expr} {bs : List UInt8} (hf : KeyMap.get? l "contains" = none)
    (he : eval l e s = .ok (.bytes bs))
    (harg : Call.argument ⟨"contains", some (.bytes bs), delayAll l es, s⟩ 0 = .ok (.bytes [])) :
    Breaks l (.callOn "contains" e es) s := by
  obtain ⟨part, hpart, hp⟩ := argument_delayAll harg
  obtain ⟨more, rfl⟩ := List.head?_eq_some_iff.mp (List.head?_eq_getElem?.trans hpart)
  exact .search hf .callOn he hp

theorem Breaks.of_call {bs : List UInt8} {next : Nat} (hf : KeyMap.get? l "contains" = none)
    (htarget : Call.target ⟨"contains", none, delayAll l es, s⟩ = .ok (.bytes bs, next))
    (harg : Call.argument ⟨"contains", none, delayAll l es, s⟩ next = .ok (.bytes [])) :
    Breaks l (.call "contains" es) s := by
  obtain ⟨v, hv, he⟩ := Journal.map_eq_ok_iff.mp htarget
  cases he
  obtain ⟨target, args, rfl, ht⟩ := standIn_delayAll hv
  obtain ⟨part, hpart, hp⟩ := argument_delayAll harg
  obtain ⟨more, rfl⟩ := List.head?_eq_some_iff.mp (List.head?_eq_getElem?.trans hpart)
  exact .search hf .call ht hp

end

/-- At a break the evaluation ends. -/
theorem Breaks.eval {l : Library} {e : Expr} {s : Scope} (h : Breaks l e s) :
    eval l e s = .error .crash := by
  cases h with
  | quotient hop ha hb hq =>
    rw [Expression.eval, ha, hb]
    exact Arithmetic.apply_eq_crash_iff.mpr ⟨hop, hq⟩
  | loop hf he hv hargs =>
    obtain ⟨work, hwork, -⟩ := function?_of_isLoop hf
    obtain ⟨c, next, heval, -, htarget, hget⟩ := he.eval_eq hwork hv
    have hloop : c.loop next = crash := by
      have hfirst := hget 0
      have hsecond := hget 1
      rw [Nat.add_zero] at hfirst
      rw [Call.loop, hfirst, hsecond]
      obtain rfl | ⟨x, rfl⟩ := hargs <;> rfl
    simp only [heval, withLoop, htarget, Journal.ok_bind, hloop]
    rfl
  | @search target part e more s bs hf he ht hp =>
    have hcontains : function? l "contains" = some contains := by
      rw [function?, hf]
      rfl
    obtain ⟨c, next, heval, hscope, htarget, hget⟩ := he.eval_eq hcontains ht
    have harg : c.argument next = .ok (.bytes []) := by
      have hfirst := hget 0
      rw [Nat.add_zero] at hfirst
      rw [Call.argument, hfirst, hscope]
      exact hp
    simp only [heval, contains, htarget, Journal.ok_bind, harg]
    rfl

mutual

/-- An evaluation that reaches no break has a value or a fault. -/
theorem avoids_eval (l : Library) (e : Expr) {s : Scope} (h : Unbroken l e s) :
    Avoids .crash (eval l e s) := by
  match e with
  | .literal c => exact avoids_ok _
  | .name x => exact avoids_variableOf s x
  | .list items =>
    rw [eval]
    exact (avoids_evalItems l items fun c hc => h.operand hc).map _
  | .map entries =>
    rw [eval]
    exact (avoids_evalEntries l entries (fun c hc => h.operand hc) []).map _
  | .unary op e =>
    rw [eval]
    have he : Unbroken l e s := h.operand (.head _)
    exact (avoids_eval l e he).bind fun v _ => op.avoids_apply v
  | .arithmetic op a b =>
    rw [eval]
    have ha : Unbroken l a s := h.operand (.head _)
    have hb : Unbroken l b s := h.operand (.tail _ (.head _))
    refine (avoids_eval l a ha).bind fun x hx => (avoids_eval l b hb).bind fun y hy hcrash => ?_
    obtain ⟨hop, hq⟩ := Arithmetic.apply_eq_crash_iff.mp hcrash
    exact h.here (.quotient hop hx hy hq)
  | .relation op a b =>
    rw [eval]
    have ha : Unbroken l a s := h.operand (.head _)
    have hb : Unbroken l b s := h.operand (.tail _ (.head _))
    refine (avoids_eval l a ha).bind fun x _ => (avoids_eval l b hb).bind fun y _ => ?_
    exact (op.avoids_holds x y).map _
  | .and a b =>
    rw [eval]
    have ha : Unbroken l a s := h.operand (.head _)
    refine (avoids_eval l a ha).bind fun x hx => ?_
    split_ifs with htrue
    · -- only an operand that is evaluated has to be unbroken
      have hb : Unbroken l b s := h.inside fun _ _ => .and hx htrue
      exact (avoids_eval l b hb).bind fun _ _ => avoids_ok _
    · exact avoids_ok _
  | .or a b =>
    rw [eval]
    have ha : Unbroken l a s := h.operand (.head _)
    refine (avoids_eval l a ha).bind fun x hx => ?_
    split_ifs with htrue
    · exact avoids_ok _
    · exact avoids_eval l b (h.inside fun _ _ => .or hx htrue)
  | .conditional test yes no =>
    rw [eval]
    have htest : Unbroken l test s := h.operand (.head _)
    refine (avoids_eval l test htest).bind fun x hx => ?_
    split_ifs with htrue
    · exact avoids_eval l yes (h.inside fun _ _ => .yes hx htrue)
    · exact avoids_eval l no (h.inside fun _ _ => .no hx htrue)
  | .member e field =>
    rw [eval]
    have he : Unbroken l e s := h.operand (.head _)
    exact (avoids_eval l e he).bind fun v _ => avoids_memberOf l v field
  | .index e i =>
    rw [eval]
    have he : Unbroken l e s := h.operand (.head _)
    have hi : Unbroken l i s := h.operand (.tail _ (.head _))
    refine (avoids_eval l e he).bind fun v _ => (avoids_eval l i hi).bind fun index _ => ?_
    exact v.avoids_at index
  | .construct e fields =>
    rw [eval]
    have he : Unbroken l e s := h.operand (.head _)
    exact (avoids_eval l e he).bind fun _ _ => avoids_fail _
  | .call name args =>
    rw [eval, function]
    cases hf : function? l name with
    | none => exact avoids_fail _
    | some f =>
      show Avoids .crash (f ⟨name, none, delayAll l args, s⟩)
      by_cases hl : isLoop l name = true
      · obtain ⟨work, hwork, hheeds⟩ := function?_of_isLoop hl
        cases hf.symm.trans hwork
        exact avoids_withTarget l args h hl hheeds
      · have hargs : ∀ c ∈ args, Unbroken l c s :=
          fun c hc => h.operand (by rwa [Expr.operands, if_neg hl])
        refine avoids_of_function? hf hl (quiet_delayAll l args hargs) ?_
        intro hg hname bs next ht harg
        subst hname
        exact h.here (.of_call hg ht harg)
  | .callOn name e args =>
    rw [eval, function]
    cases hf : function? l name with
    | none => exact avoids_fail _
    | some f =>
      by_cases hl : isLoop l name = true
      · obtain ⟨work, hwork, hheeds⟩ := function?_of_isLoop hl
        cases hf.symm.trans hwork
        have he : Unbroken l e s :=
          h.operand (by rw [Expr.operands, if_pos hl]; exact .head _)
        refine (avoids_eval l e he).bind fun v hv => ?_
        exact avoids_withBody l args h hl .callOn hv hheeds
      · have hargs : ∀ c ∈ e :: args, Unbroken l c s :=
          fun c hc => h.operand (by rwa [Expr.operands, if_neg hl])
        obtain ⟨he, hargs⟩ := List.forall_mem_cons.mp hargs
        refine (avoids_eval l e he).bind fun v hv => ?_
        refine avoids_of_function? hf hl (quiet_delayAll l args hargs) ?_
        intro hg hname bs next ht harg
        subst hname
        cases ht
        exact h.here (.of_callOn hg hv harg)

theorem avoids_evalItems (l : Library) (es : List Expr) {s : Scope}
    (h : ∀ e ∈ es, Unbroken l e s) : Avoids .crash (evalItems l es s) := by
  match es with
  | [] => exact avoids_ok _
  | e :: es =>
    obtain ⟨he, hes⟩ := List.forall_mem_cons.mp h
    rw [evalItems]
    refine (avoids_eval l e he).bind fun _ _ => ?_
    exact (avoids_evalItems l es hes).bind fun _ _ => avoids_ok _

theorem avoids_evalEntries (l : Library) (entries : List (Expr × Expr)) {s : Scope}
    (h : ∀ c ∈ entries.flatMap fun e => [e.1, e.2], Unbroken l c s) (done : Entries) :
    Avoids .crash (evalEntries l entries s done) := by
  match entries with
  | [] => exact avoids_ok _
  | (k, e) :: entries =>
    rw [List.flatMap_cons, List.forall_mem_append, List.forall_mem_cons, List.forall_mem_singleton]
      at h
    obtain ⟨⟨hk, he⟩, hentries⟩ := h
    rw [evalEntries]
    refine (avoids_eval l k hk).bind fun v _ => (avoids_keyOf v).bind fun key _ => ?_
    refine (avoids_eval l e he).bind fun value _ => ?_
    exact avoids_evalEntries l entries hentries _

theorem quiet_delayAll (l : Library) (es : List Expr) {s : Scope} (h : ∀ e ∈ es, Unbroken l e s) :
    ∀ a ∈ delayAll l es, Avoids .crash (a.run s) := by
  match es with
  | [] => exact nofun
  | e :: es =>
    obtain ⟨he, hes⟩ := List.forall_mem_cons.mp h
    rw [delayAll, List.forall_mem_cons]
    exact ⟨avoids_eval l e he, quiet_delayAll l es hes⟩

theorem avoids_withTarget (l : Library) (args : List Expr) {f : String} {s : Scope}
    (h : Unbroken l (.call f args) s) (hf : isLoop l f = true)
    {work : (Value → Result Value) → Value → Result Value} (hwork : Heeds work) :
    Avoids .crash (withLoop work ⟨f, none, delayAll l args, s⟩) := by
  match args with
  | [] => exact avoids_fail _
  | target :: args =>
    have htarget : Unbroken l target s :=
      h.operand (by rw [Expr.operands, if_pos hf]; exact .head _)
    rw [delayAll, withLoop_standIn]
    refine (Call.avoids_standIn fun a ha => ?_).bind fun v hv => ?_
    · obtain rfl := Option.some.inj ha
      exact avoids_eval l target htarget
    · rw [← delayAll] at hv
      obtain ⟨_, _, he, hv⟩ := standIn_delayAll hv
      cases he
      exact avoids_withBody l args h hf .call hv hwork

/-- The body of a loop is evaluated in a scope of its own, once for each element that is reached. -/
theorem avoids_withBody (l : Library) (args : List Expr) {f : String} {target e : Expr} {s : Scope}
    {v : Value} (h : Unbroken l e s) (hf : isLoop l f = true) (he : Invokes f target args e)
    (hv : eval l target s = .ok v)
    {work : (Value → Result Value) → Value → Result Value} (hwork : Heeds work) :
    Avoids .crash (withLoop work ⟨f, some v, delayAll l args, s⟩) := by
  have hlacks : ¬ LacksBody args := fun hlacks => h.here (.loop hf he hv hlacks)
  cases args with
  | nil => exact absurd (.inl rfl) hlacks
  | cons loopName args =>
    cases loopName with
    | name y =>
      cases args with
      | nil => exact absurd (.inr ⟨y, rfl⟩) hlacks
      | cons body more =>
        show Avoids .crash (work (fun u => eval l body ((y, u) :: s)) v)
        refine hwork fun vs hvs u hu => avoids_eval l body ?_
        exact h.inside fun _ _ => .body hf he hv hvs hu
    | _ => exact avoids_fail _

end

/-- A crash comes from a break that the evaluation reaches. -/
theorem exists_breaks_of_eval {l : Library} {e : Expr} {s : Scope}
    (h : eval l e s = .error .crash) : ∃ x t, Reaches l x t e s ∧ Breaks l x t := by
  by_contra hnone
  exact avoids_eval l e (fun x t hr hb => hnone ⟨x, t, hr, hb⟩) h

end ClaimMapping.Expression
