import ClaimMapping.Proofs.Expression.Grammar

namespace ClaimMapping.Expression

/-- The expressions right inside another one. -/
def Expr.children : Expr → List Expr
  | .literal _ => []
  | .name _ => []
  | .list items => items
  | .map entries => entries.flatMap fun e => [e.1, e.2]
  | .unary _ e => [e]
  | .arithmetic _ a b => [a, b]
  | .relation _ a b => [a, b]
  | .and a b => [a, b]
  | .or a b => [a, b]
  | .conditional test yes no => [test, yes, no]
  | .member e _ => [e]
  | .index e i => [e, i]
  | .construct e fields => e :: fields.map Prod.snd
  | .call _ args => args
  | .callOn _ e args => e :: args

/-- An expression at any depth of another one. -/
inductive Within (x : Expr) : Expr → Prop where
  | refl : Within x x
  | child {c e : Expr} (hc : c ∈ e.children) (h : Within x c) : Within x e

/-- A call of a function, with a receiver or without one. -/
inductive IsCallOf (f : String) : Expr → Prop where
  | call (args : List Expr) : IsCallOf f (.call f args)
  | callOn (e : Expr) (args : List Expr) : IsCallOf f (.callOn f e args)

/-- A call of `timestamp` whose first argument is a number. -/
inductive IsTimeOf (isNumber : Expr → Prop) : Expr → Prop where
  | call {n : Expr} {more : List Expr} (h : isNumber n) :
    IsTimeOf isNumber (.call "timestamp" (n :: more))
  | callOn {e n : Expr} {more : List Expr} (h : isNumber n) :
    IsTimeOf isNumber (.callOn "timestamp" e (n :: more))

def Expr.isCall : Expr → Bool
  | .call _ _ => true
  | .callOn _ _ _ => true
  | _ => false

theorem IsTimeOf.isCall {isNumber : Expr → Prop} {e : Expr} (h : IsTimeOf isNumber e) :
    e.isCall = true := by
  cases h <;> rfl

/-- A call of `int` with its argument in parentheses. -/
def IsIntCall (e : Expr) : Prop := ∃ args, e = .call "int" args

/-- Whether a time is made from a number at some place of an expression. -/
def MakesTime (e : Expr) : Prop := ∃ x, IsTimeOf IsIntCall x ∧ Within x e

/-- A call that makes a time from a number stands at the root of a tree or in one of its
children. -/
theorem MakesTime.cases {e : Expr} (h : MakesTime e) :
    IsTimeOf IsIntCall e ∨ ∃ c ∈ e.children, MakesTime c := by
  obtain ⟨x, hx, hw⟩ := h
  cases hw with
  | refl => exact .inl hx
  | child hc hw => exact .inr ⟨_, hc, x, hx, hw⟩

/-- What is no call itself has the call inside. -/
theorem MakesTime.inside {e : Expr} (h : MakesTime e) (he : e.isCall = false) :
    ∃ c ∈ e.children, MakesTime c :=
  h.cases.resolve_left fun htime => absurd htime.isCall (Bool.eq_false_iff.mp he)

theorem MakesTime.inside_one {e a : Expr} (h : MakesTime e) (he : e.isCall = false)
    (hchildren : e.children = [a]) : MakesTime a := by
  obtain ⟨c, hc, h⟩ := h.inside he
  rw [hchildren, List.mem_singleton] at hc
  exact hc ▸ h

theorem MakesTime.inside_two {e a b : Expr} (h : MakesTime e) (he : e.isCall = false)
    (hchildren : e.children = [a, b]) : MakesTime a ∨ MakesTime b := by
  obtain ⟨c, hc, h⟩ := h.inside he
  simp only [hchildren, List.mem_cons, List.not_mem_nil, or_false] at hc
  obtain rfl | rfl := hc
  · exact .inl h
  · exact .inr h

/-- What can stand in front of a name without changing it: parentheses, and a point behind them. -/
inductive Opener : List Token → Prop where
  | none : Opener []
  | point : Opener [.symbol .dot]
  | paren {ts : List Token} (h : Opener ts) : Opener (.symbol .openParen :: ts)

/-- Tokens that begin with a call of `int`. -/
def OpensInt (ts : List Token) : Prop :=
  ∃ opener rest, Opener opener ∧
    ts = opener ++ .identifier "int" :: .symbol .openParen :: rest

/-- Tokens with a call of `timestamp` among them, right behind whose parenthesis `int` is called. -/
def SpellsTime (ts : List Token) : Prop :=
  ∃ before rest, ts = before ++ .identifier "timestamp" :: .symbol .openParen :: rest ∧
    OpensInt rest

theorem SpellsTime.of_suffix {ts us : List Token} (h : SpellsTime us) (hs : us <:+ ts) :
    SpellsTime ts := by
  obtain ⟨front, rfl⟩ := hs
  obtain ⟨before, rest, rfl, hint⟩ := h
  exact ⟨front ++ before, rest, (List.append_assoc _ _ _).symm, hint⟩

/-- The expression that the first token of a phrase belongs to. -/
def Phrase.first? : Phrase → Option Expr
  | .expr e => some e
  | .items _ es => es.head?
  | .entries _ => none
  | .fields _ => none

/-- In front of a call there is nothing but an opener. -/
theorem opensInt_of_writes {p : Phrase} {ts rest : List Token} (h : Writes p ts rest)
    {args : List Expr} (hp : p.first? = some (.call "int" args)) : OpensInt ts := by
  induction h with
  | @call f _ ts =>
    cases hp
    exact ⟨[], ts, .none, rfl⟩
  | point _ ih =>
    obtain ⟨opener, rest, hopener, he⟩ := ih hp
    cases hopener with
    | none =>
      refine ⟨[.symbol .dot], rest, .point, congrArg (.symbol .dot :: ·) he⟩
    | point => cases he
    | paren => cases he
  | parens _ ih =>
    obtain ⟨opener, rest, hopener, rfl⟩ := ih hp
    exact ⟨.symbol .openParen :: opener, rest, .paren hopener, rfl⟩
  | lastItem _ ih => exact ih hp
  | item _ _ ih => exact ih hp
  | _ => cases hp

/-- Whether a time is made from a number in one of the expressions of a phrase. -/
def Phrase.MakesTime : Phrase → Prop
  | .expr e => Expression.MakesTime e
  | .items _ es => ∃ e ∈ es, Expression.MakesTime e
  | .entries es => ∃ e ∈ es, Expression.MakesTime e.1 ∨ Expression.MakesTime e.2
  | .fields fs => ∃ e ∈ fs, Expression.MakesTime e.2

/-- Of two expressions with a token between them. -/
theorem spellsTime_of_either {a b : Expr} {t : Token} {ts us : List Token}
    (h : MakesTime a ∨ MakesTime b) (ha : Writes (.expr a) ts (t :: us))
    (iha : MakesTime a → SpellsTime ts) (ihb : MakesTime b → SpellsTime us) : SpellsTime ts := by
  obtain h | h := h
  · exact iha h
  · exact (ihb h).of_suffix (tail_of_writes ha)

/-- A call that makes a time from a number is to be seen in the tokens. -/
theorem spellsTime_of_writes {p : Phrase} {ts rest : List Token} (h : Writes p ts rest)
    (hp : p.MakesTime) : SpellsTime ts := by
  induction h with
  | literal =>
    obtain ⟨c, hc, -⟩ := MakesTime.inside hp rfl
    cases hc
  | name =>
    obtain ⟨c, hc, -⟩ := MakesTime.inside hp rfl
    cases hc
  | call h ih =>
    obtain htime | hargs := MakesTime.cases hp
    · cases htime with
      | call hint =>
        obtain ⟨args, rfl⟩ := hint
        exact ⟨[], _, rfl, opensInt_of_writes h rfl⟩
    · exact (ih hargs).of_suffix (List.suffix_append [_, _] _)
  | callOn he h ihe ih =>
    have hargs := suffix_of_writes he
    obtain htime | ⟨c, hc, hmakes⟩ := MakesTime.cases hp
    · cases htime with
      | callOn hint =>
        obtain ⟨args, rfl⟩ := hint
        obtain ⟨front, rfl⟩ := hargs
        -- the receiver is written in front of the name
        exact ⟨front ++ [.symbol .dot], _, by simp, opensInt_of_writes h rfl⟩
    · obtain rfl | hc := List.mem_cons.mp hc
      · exact ihe hmakes
      · exact (ih ⟨c, hc, hmakes⟩).of_suffix ((List.suffix_append [_, _, _] _).trans hargs)
  | point _ ih => exact (ih hp).of_suffix (List.suffix_cons _ _)
  | parens _ ih => exact (ih hp).of_suffix (List.suffix_cons _ _)
  | list _ ih => exact (ih (MakesTime.inside hp rfl)).of_suffix (List.suffix_cons _ _)
  | map _ ih =>
    obtain ⟨c, hc, hmakes⟩ := MakesTime.inside hp rfl
    obtain ⟨e, he, hc⟩ := List.mem_flatMap.mp hc
    refine (ih ⟨e, he, ?_⟩).of_suffix (List.suffix_cons _ _)
    simp only [List.mem_cons, List.not_mem_nil, or_false] at hc
    obtain rfl | rfl := hc
    · exact .inl hmakes
    · exact .inr hmakes
  | unary _ _ ih =>
    exact (ih (MakesTime.inside_one hp rfl rfl)).of_suffix (List.suffix_cons _ _)
  | arithmetic _ ha _ iha ihb =>
    exact spellsTime_of_either (MakesTime.inside_two hp rfl rfl) ha iha ihb
  | relation _ ha _ iha ihb =>
    exact spellsTime_of_either (MakesTime.inside_two hp rfl rfl) ha iha ihb
  | and ha _ iha ihb =>
    exact spellsTime_of_either (MakesTime.inside_two hp rfl rfl) ha iha ihb
  | or ha _ iha ihb =>
    exact spellsTime_of_either (MakesTime.inside_two hp rfl rfl) ha iha ihb
  | conditional htest hyes _ ihtest ihyes ihno =>
    obtain ⟨c, hc, hmakes⟩ := MakesTime.inside hp rfl
    simp only [Expr.children, List.mem_cons, List.not_mem_nil, or_false] at hc
    obtain rfl | rfl | rfl := hc
    · exact ihtest hmakes
    · exact (ihyes hmakes).of_suffix (tail_of_writes htest)
    · exact (ihno hmakes).of_suffix ((tail_of_writes hyes).trans (tail_of_writes htest))
  | member _ ih => exact ih (MakesTime.inside_one hp rfl rfl)
  | index he _ ihe ihi =>
    exact spellsTime_of_either (MakesTime.inside_two hp rfl rfl) he ihe ihi
  | construct he _ ihe ih =>
    obtain ⟨c, hc, hmakes⟩ := MakesTime.inside hp rfl
    obtain rfl | hc := List.mem_cons.mp hc
    · exact ihe hmakes
    obtain ⟨e, hfield, rfl⟩ := List.mem_map.mp hc
    exact (ih ⟨e, hfield, hmakes⟩).of_suffix (tail_of_writes he)
  | noItem =>
    obtain ⟨e, he, -⟩ := hp
    cases he
  | lastItem _ ih =>
    obtain ⟨e, he, hmakes⟩ := hp
    obtain rfl := List.mem_singleton.mp he
    exact ih hmakes
  | item he _ ihe ih =>
    obtain ⟨e, hmem, hmakes⟩ := hp
    obtain rfl | hmem := List.mem_cons.mp hmem
    · exact ihe hmakes
    · exact (ih ⟨e, hmem, hmakes⟩).of_suffix (tail_of_writes he)
  | noEntry =>
    obtain ⟨e, he, -⟩ := hp
    cases he
  | lastEntry hk _ ihk ihv =>
    obtain ⟨e, he, hmakes⟩ := hp
    obtain rfl := List.mem_singleton.mp he
    exact spellsTime_of_either hmakes hk ihk ihv
  | entry hk hv _ ihk ihv ih =>
    obtain ⟨e, hmem, hmakes⟩ := hp
    obtain rfl | hmem := List.mem_cons.mp hmem
    · exact spellsTime_of_either hmakes hk ihk ihv
    · exact (ih ⟨e, hmem, hmakes⟩).of_suffix ((tail_of_writes hv).trans (tail_of_writes hk))
  | noField =>
    obtain ⟨e, he, -⟩ := hp
    cases he
  | lastField _ ih =>
    obtain ⟨e, he, hmakes⟩ := hp
    obtain rfl := List.mem_singleton.mp he
    exact (ih hmakes).of_suffix (List.suffix_append [_, _] _)
  | field hv _ ihv ih =>
    obtain ⟨e, hmem, hmakes⟩ := hp
    refine SpellsTime.of_suffix ?_ (List.suffix_append [_, _] _)
    obtain rfl | hmem := List.mem_cons.mp hmem
    · exact ihv hmakes
    · exact (ih ⟨e, hmem, hmakes⟩).of_suffix (tail_of_writes hv)

end ClaimMapping.Expression
