import ClaimMapping.Proofs.Expression.Lexing
import ClaimMapping.Proofs.Expression.TimeCall
import ClaimMapping.Proofs.Mapping.Requirement

namespace ClaimMapping.Mapping

open Expression

/-- What can stand in front of the name of a function: layout with parentheses in it, and a point
behind them. -/
inductive IsOpening : List Char → Prop where
  | layout {text : List Char} (h : IsLayout text) : IsOpening text
  | point {a b : List Char} (ha : IsLayout a) (hb : IsLayout b) : IsOpening (a ++ '.' :: b)
  | paren {a text : List Char} (ha : IsLayout a) (h : IsOpening text) : IsOpening (a ++ '(' :: text)

/-- Layout is white space, but for comments. -/
theorem isBlankRun_or_of_isLayout {text : List Char} (h : IsLayout text) :
    IsBlankRun text ∨ '/' ∈ text := by
  induction h with
  | nil => exact .inl (List.forall_mem_nil _)
  | blank hc _ ih =>
    exact ih.imp (fun h => List.forall_mem_cons.mpr ⟨hc, h⟩) (List.mem_cons_of_mem _)
  | comment => exact .inr List.mem_cons_self

theorem isBlankRun_or_of_isOpening {text : List Char} (h : IsOpening text) :
    IsBlankRun text ∨ '/' ∈ text ∨ '(' ∈ text ∨ '.' ∈ text := by
  cases h with
  | layout h => exact (isBlankRun_or_of_isLayout h).imp_right .inl
  | point => exact .inr (.inr (.inr List.mem_append_cons_self))
  | paren => exact .inr (.inr (.inl List.mem_append_cons_self))

theorem exists_of_lexes_opener {opener : List Token} (ho : Opener opener) {text : List Char}
    {f : String} {ts : List Token} (h : Lexes text (opener ++ .identifier f :: ts)) :
    ∃ b rest, IsOpening b ∧ text = b ++ (f.toList ++ rest) ∧ Lexes rest ts := by
  induction ho generalizing text with
  | none =>
    obtain ⟨gap, rest, hgap, rfl, hrest⟩ := exists_of_lexes_cons h rfl
    exact ⟨gap, rest, .layout hgap, rfl, hrest⟩
  | point =>
    obtain ⟨a, text, ha, rfl, hname⟩ := exists_of_lexes_cons h rfl
    obtain ⟨b, rest, hb, rfl, hrest⟩ := exists_of_lexes_cons hname rfl
    exact ⟨a ++ '.' :: b, rest, .point ha hb, by simp, hrest⟩
  | paren _ ih =>
    obtain ⟨a, text, ha, rfl, hopener⟩ := exists_of_lexes_cons h rfl
    obtain ⟨b, rest, hb, rfl, hrest⟩ := ih hopener
    exact ⟨a ++ '(' :: b, rest, .paren ha hb, by simp, hrest⟩

/-- A text with a call of `timestamp` in it, right behind whose parenthesis `int` is called: what
stands before the call, and within the pattern of the guard. -/
structure Spells (text before a b c rest : List Char) : Prop where
  before_paren : IsLayout a
  before_int : IsOpening b
  behind_int : IsLayout c
  eq : text = before ++ ("timestamp".toList ++ a ++ '(' :: (b ++ "int".toList ++ c ++ '(' :: rest))

theorem exists_spells {text : List Char} {ts : List Token} (hlexes : Lexes text ts)
    (h : SpellsTime ts) : ∃ before a b c rest, Spells text before a b c rest := by
  obtain ⟨us, vs, rfl, opener, ws, hopener, rfl⟩ := h
  obtain ⟨before, text, rfl, hname⟩ := exists_of_lexes_append hlexes
  obtain ⟨gap, text, -, rfl, hparen⟩ := exists_of_lexes_cons hname rfl
  obtain ⟨a, text, ha, rfl, harg⟩ := exists_of_lexes_cons hparen rfl
  obtain ⟨b, text, hb, rfl, hint⟩ := exists_of_lexes_opener hopener harg
  obtain ⟨c, rest, hc, rfl, -⟩ := exists_of_lexes_cons hint rfl
  exact ⟨before ++ gap, a, b, c, rest, ha, hb, hc, by simp⟩

/-- A call that makes a time from a number shows both names in the text, one behind the other. -/
theorem exists_spells_of_read {source : String} {e : Expr} (hread : read source = .ok e)
    (h : MakesTime e) : ∃ before a b c rest, Spells source.toList before a b c rest :=
  exists_spells (lexes_lexemesUpTo _ _ _) (spellsTime_of_writes (writes_of_read hread) h)

/-- The guard takes white space and nothing else. -/
theorem Spells.makesTimeOfNumber {source : String} {before a b c rest : List Char}
    (h : Spells source.toList before a b c rest) (ha : IsBlankRun a) (hb : IsBlankRun b)
    (hc : IsBlankRun c) : MakesTimeOfNumber source :=
  ⟨before, _, h.eq, a, b, c, rest, ha, hb, hc, rfl⟩

/-- Where the guard does not see a call that makes a time from a number, a comment, a parenthesis or
a point stands within the pattern. -/
theorem Spells.mem_of_not_makesTimeOfNumber {source : String} {before a b c rest : List Char}
    (h : Spells source.toList before a b c rest) (hno : ¬ MakesTimeOfNumber source) :
    '/' ∈ a ++ b ++ c ∨ '(' ∈ b ∨ '.' ∈ b := by
  simp only [List.mem_append]
  obtain ha | ha := isBlankRun_or_of_isLayout h.before_paren
  · obtain hb | hb | hb := isBlankRun_or_of_isOpening h.before_int
    · obtain hc | hc := isBlankRun_or_of_isLayout h.behind_int
      · exact absurd (h.makesTimeOfNumber ha hb hc) hno
      · exact .inl (.inr hc)
    · exact .inl (.inl (.inr hb))
    · exact .inr hb
  · exact .inl (.inl (.inl ha))

/-- The checks before the guard pass, with this mapping. -/
structure ReachesGuard (s : Setting) (r : Request) (m : KeyMap String) : Prop where
  check : r.check = .ok m
  resolve : ∃ p b, (s.resolve r).outcome = .ok (p, b)
  lengths : checkLengths m = .ok ()
  condition : checkLength .condition r.condition conditionLimit = .ok ()
  names : checkNames (KeyMap.keys m) = .ok ()

theorem checkTimes_eq_error {sources : List String} {source : String} (hs : source ∈ sources)
    (h : MakesTimeOfNumber source) :
    checkTimes sources = .error .unsupportedTimestampConstruction :=
  if_pos (List.any_eq_true.mpr ⟨source, hs, makesTimeOfNumber_iff.mpr h⟩)

/-- A run that comes to the guard is refused when one of its sources has the pattern. -/
theorem ReachesGuard.run {s : Setting} {r : Request} {m : KeyMap String} (h : ReachesGuard s r m)
    {source : String} (hs : source ∈ m.map Prod.snd ++ [r.condition])
    (htime : MakesTimeOfNumber source) :
    (s.run r).outcome = .error (.error .unsupportedTimestampConstruction) := by
  obtain ⟨p, b, hresolve⟩ := h.resolve
  have hsources : checkSources m r.condition = .error .unsupportedTimestampConstruction := by
    unfold checkSources
    rw [h.lengths, h.condition, h.names]
    exact checkTimes_eq_error hs htime
  rw [run_outcome, h.check, hresolve]
  simp only [Except.mapError, bind, Except.bind, hsources]

theorem not_makesTimeOfNumber_of_checkSources {m : KeyMap String} {condition source : String}
    (h : checkSources m condition = .ok ()) (hs : source ∈ m.map Prod.snd ++ [condition]) :
    ¬ MakesTimeOfNumber source := by
  obtain ⟨-, -, -, htimes, hcondition⟩ := checkSources_eq_ok_iff.mp h
  obtain hs | hs := List.mem_append.mp hs
  · obtain ⟨entry, hentry, rfl⟩ := List.mem_map.mp hs
    exact htimes entry hentry
  · rwa [List.mem_singleton.mp hs]

/-- Wherever in an expression a time is made from a number, the source spells the two calls. With
only white space within the pattern every run that reaches the guard is refused; what passes has a
comment there, or a parenthesis or a point in front of `int`. -/
theorem guards_timeOfInt {source : String} {e x : Expr} (hread : Expression.read source = .ok e)
    (hwithin : Within x e) (hx : IsTimeOf IsIntCall x) :
    (∃ before a b c rest, Spells source.toList before a b c rest) ∧
    ∀ before a b c rest, Spells source.toList before a b c rest →
      (IsBlankRun a → IsBlankRun b → IsBlankRun c →
        ∀ (s : Setting) (r : Request) (m : KeyMap String), ReachesGuard s r m →
          source ∈ m.map Prod.snd ++ [r.condition] →
            (s.run r).outcome = .error (.error .unsupportedTimestampConstruction)) ∧
      ∀ (m : KeyMap String) (condition : String), checkSources m condition = .ok () →
        source ∈ m.map Prod.snd ++ [condition] → '/' ∈ a ++ b ++ c ∨ '(' ∈ b ∨ '.' ∈ b := by
  refine ⟨exists_spells_of_read hread ⟨x, hx, hwithin⟩,
    fun before a b c rest h => ⟨?refused, ?passed⟩⟩
  case refused =>
    intro ha hb hc s r m hreaches hs
    exact hreaches.run hs (h.makesTimeOfNumber ha hb hc)
  case passed =>
    intro m condition hchecks hs
    exact h.mem_of_not_makesTimeOfNumber (not_makesTimeOfNumber_of_checkSources hchecks hs)

/-- A time made from a claim, with white space in front of both parentheses. -/
def spacedTime : Request :=
  ⟨"\x7b\"iat\":0\x7d", some [("google.subject", "string(timestamp (  int(assertion.iat)))")], "",
    none⟩

theorem guards_spacedTime :
    (∃ before a b c rest,
      Spells "string(timestamp (  int(assertion.iat)))".toList before a b c rest) ∧
    (Setting.standard.run spacedTime).outcome =
      .error (.error .unsupportedTimestampConstruction) := by
  have hread : Expression.read "string(timestamp (  int(assertion.iat)))" = .ok (.call "string"
      [.call "timestamp" [.call "int" [.member (.name "assertion") "iat"]]]) := by cbv
  have hreaches : ReachesGuard .standard spacedTime
      [("google.subject", "string(timestamp (  int(assertion.iat)))")] :=
    { check := rfl
      resolve := ⟨Provider.oidc, Provider.assertion (.object [("iat", .number (.natural 0))]),
        by cbv⟩
      lengths := by cbv
      condition := rfl
      names := by cbv }
  have hspells : Spells "string(timestamp (  int(assertion.iat)))".toList "string(".toList
      [' '] [' ', ' '] [] "assertion.iat)))".toList :=
    ⟨.blank rfl .nil, .layout (.blank rfl (.blank rfl .nil)), .nil, by decide +kernel⟩
  obtain ⟨spells, guards⟩ :=
    guards_timeOfInt hread (.child List.mem_cons_self .refl) (.call ⟨_, rfl⟩)
  have hnone : IsBlankRun [] := List.forall_mem_nil _
  have hone : IsBlankRun [' '] := List.forall_mem_cons.mpr ⟨rfl, hnone⟩
  have htwo : IsBlankRun [' ', ' '] := List.forall_mem_cons.mpr ⟨rfl, hone⟩
  exact ⟨spells, (guards _ _ _ _ _ hspells).1 hone htwo hnone .standard spacedTime _ hreaches
    (List.mem_append_left _ List.mem_cons_self)⟩

/-- A call of `int` in parentheses, behind a point, with a comment, and with a receiver. -/
def hiddenInts : List String := ["(int(0))", ".int(0)", "int//\n(0)", "0.int()"]

/-- A time made from a number where it is not evaluated. -/
def idleTime (number : String) : String := "true ? 's' : timestamp(" ++ number ++ ")"

def idleTree (number : Expr) : Expr :=
  .conditional (.literal (.bool true)) (.literal (.string "s")) (.call "timestamp" [number])

theorem within_idleTree (number : Expr) :
    Within (.call "timestamp" [number]) (idleTree number) :=
  .child (by simp [idleTree, Expr.children]) .refl

theorem read_idleTime : ∀ number ∈ hiddenInts, ∃ n, IsCallOf "int" n ∧
    Expression.read (idleTime number) = .ok (idleTree n) := by
  intro number hnumber
  simp only [hiddenInts, List.mem_cons, List.not_mem_nil, or_false] at hnumber
  unfold idleTime
  obtain rfl | rfl | rfl | rfl := hnumber
  · exact ⟨_, .call [.literal (.int 0)], by cbv⟩
  · exact ⟨_, .call [.literal (.int 0)], by cbv⟩
  · exact ⟨_, .call [.literal (.int 0)], by cbv⟩
  · exact ⟨_, .callOn (.literal (.int 0)) [], by cbv⟩

def idleRequest (number : String) : Request :=
  ⟨"\x7b\"sub\":\"s\"\x7d", some [("google.subject", idleTime number)], "", none⟩

/-- The calls are in the trees, and the runs succeed. -/
theorem run_idleRequest :
    (∀ number ∈ hiddenInts, ∃ e x, Expression.read (idleTime number) = .ok e ∧ Within x e ∧
      IsTimeOf (IsCallOf "int") x) ∧
    ∀ number ∈ hiddenInts, (Setting.standard.run (idleRequest number)).outcome =
      .ok [("google.subject", .text "s")] := by
  have hruns : ∀ number ∈ hiddenInts,
      (Setting.standard.run (idleRequest number)).outcome.toOption =
        some [("google.subject", .text "s")] := by
    decide +kernel
  refine ⟨fun number hnumber => ?reads, fun number hnumber => ?runs⟩
  case reads =>
    obtain ⟨n, hn, hread⟩ := read_idleTime number hnumber
    exact ⟨_, _, hread, within_idleTree n, .call hn⟩
  case runs =>
    have hrun := hruns number hnumber
    exact Journal.eq_ok_of_toOption hrun

end ClaimMapping.Mapping
