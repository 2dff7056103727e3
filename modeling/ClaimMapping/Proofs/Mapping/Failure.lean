import ClaimMapping.Proofs.Attribute.Family
import ClaimMapping.Proofs.Mapping.CheckOrder
import ClaimMapping.Proofs.Mapping.Requirement

namespace ClaimMapping.Mapping

open Attribute
open Expression (Bindings Environment)
open Journal (mapError_eq_error_iff map_eq_error_iff)

/-- The expression of an entry can be evaluated over the bindings of the provider, with this
outcome. -/
inductive Evaluates (s : Setting) (r : Request) (key : String) :
    Except Expression.Stop Expression.Value → Prop where
  | intro {m : KeyMap String} {source : String} {p : Provider} {b : Bindings} {x : Expression.Expr}
      {outcome : Except Expression.Stop Expression.Value} (mapping : r.mapping = some m)
      (entry : (key, source) ∈ m) (resolved : Resolves s r p b)
      (reads : Expression.read source = .ok x)
      (gives : Environment.evaluate ⟨p.declarations, s.library⟩ x b = outcome) :
      Evaluates s r key outcome

/-- The bindings of the provider, and the attributes that all entries give over them. -/
inductive Gets (s : Setting) (r : Request) (b : Bindings) (d : Derived) : Prop where
  | intro {m : KeyMap String} {p : Provider} (mapping : r.mapping = some m)
      (resolved : Resolves s r p b) (derives : DerivesAll ⟨p.declarations, s.library⟩ b m d)

/-- A check fails with an error. Whether one fails does not depend on the checks before it, as long
as what it looks at is there. -/
inductive Fails (s : Setting) (r : Request) : Check → Error → Prop where
  | payload (h : r.payload = "") : Fails s r .payload (.invalidInput .emptyPayload)
  | missing (h : r.mapping = none) : Fails s r .missing (.invalidInput .missingMapping)
  | empty (h : r.mapping = some []) : Fails s r .empty (.invalidInput .emptyMapping)
  | key {m : KeyMap String} {key : String} (mapping : r.mapping = some m)
      (entry : key ∈ KeyMap.keys m) (h : ¬ IsTargetKey key) :
      Fails s r (.key key) (.invalidMappingKey key)
  | unknown {name : String} (given : r.provider = some name)
      (h : ∀ p ∈ s.providers, p.name ≠ name) : Fails s r .provider (.unknownProvider name)
  | refused {name : String} {p : Provider} {before after : List Provider}
      {e : Provider.ParseError} (given : r.provider = some name)
      (split : s.providers = before ++ p :: after) (others : ∀ q ∈ before, q.name ≠ name)
      (match_name : p.name = name) (h : (p.parse r.payload).outcome = .error e) :
      Fails s r .provider (.parse name e)
  | unresolved (given : r.provider = none)
      (h : ∀ p ∈ s.providers, ∃ e, (p.parse r.payload).outcome = .error e) :
      Fails s r .provider .noProviderFound
  | mappingLength {m : KeyMap String} {key source : String} (mapping : r.mapping = some m)
      (entry : (key, source) ∈ m) (h : 2048 < source.utf8ByteSize) :
      Fails s r (.mappingLength key)
        (.expressionTooLong (.attribute key) source.utf8ByteSize 2048)
  | conditionLength (h : 4096 < r.condition.utf8ByteSize) :
      Fails s r .conditionLength (.expressionTooLong .condition r.condition.utf8ByteSize 4096)
  | name {m : KeyMap String} {name : String} (mapping : r.mapping = some m)
      (entry : customKey name ∈ KeyMap.keys m) (h : ¬ IsName name) :
      Fails s r (.name (customKey name)) (.invalidAttributeName name)
  | time {m : KeyMap String} (mapping : r.mapping = some m)
      (h : (∃ e ∈ m, MakesTimeOfNumber e.2) ∨ MakesTimeOfNumber r.condition) :
      Fails s r .time .unsupportedTimestampConstruction
  | compile {m : KeyMap String} {key source : String} {e : Expression.SyntaxError}
      (mapping : r.mapping = some m) (entry : (key, source) ∈ m)
      (h : Expression.read source = .error (.mistake e)) :
      Fails s r (.compile key) (.compile (.attribute key) e)
  | evaluate {key : String} {e : Expression.Error} (h : Evaluates s r key (.error (.error e))) :
      Fails s r (.evaluate key) (.evaluate (.attribute key) e)
  | noText {key : String} {v : Expression.Value} (evaluates : Evaluates s r key (.ok v))
      (other : key ≠ groupsKey) (h : ∀ text, v ≠ .string text) :
      Fails s r (.type key) (.wrongType key .text (.value v.kind))
  | noList {v : Expression.Value} (evaluates : Evaluates s r groupsKey (.ok v))
      (h : ∀ items, v ≠ .list items) :
      Fails s r (.type groupsKey) (.wrongType groupsKey .list (.value v.kind))
  | noTextIn {texts : List String} {v : Expression.Value} {rest : List Expression.Value}
      (evaluates : Evaluates s r groupsKey (.ok (.list (texts.map .string ++ v :: rest))))
      (h : ∀ text, v ≠ .string text) :
      Fails s r (.type groupsKey) (.wrongType groupsKey .list (.item v.kind texts.length))
  | subject {b : Bindings} {d : Derived} (gets : Gets s r b d)
      (h : ∀ text, KeyMap.get? d subjectKey ≠ some (.text text)) :
      Fails s r .subject .missingSubject
  | subjectLength {b : Bindings} {d : Derived} {text : String} (gets : Gets s r b d)
      (subject : KeyMap.get? d subjectKey = some (.text text)) (h : 127 < text.utf8ByteSize) :
      Fails s r .subjectLength (.subjectTooLong text.utf8ByteSize 127)
  | size {b : Bindings} {d : Derived} (gets : Gets s r b d) (h : 8192 < totalBytes d) :
      Fails s r .size (.attributesTooLarge (totalBytes d) 8192)
  | count {b : Bindings} {d : Derived} (gets : Gets s r b d) (h : 50 < customKeys d) :
      Fails s r .count (.tooManyCustomAttributes (customKeys d) 50)
  | environment {p : Provider} {b : Bindings} {key : String} {v : Json} (asked : r.condition ≠ "")
      (resolved : Resolves s r p b) (entry : (key, v) ∈ b) (other : ¬ InFamily key)
      (h : ∀ members, v ≠ .object members) : Fails s r (.environment key) (.environment key)
  | families {b : Bindings} {d : Derived} {nested : KeyMap Json} {e : Provider.ParseError}
      (asked : r.condition ≠ "") (gets : Gets s r b d) (nests : nest (overlay b d) = .ok nested)
      (h : Provider.Condition.read (Json.compact (.object nested)) = .error e) :
      Fails s r .families (.parse "attribute" e)
  | conditionCompile {e : Expression.SyntaxError} (asked : r.condition ≠ "")
      (h : Expression.read r.condition = .error (.mistake e)) :
      Fails s r .conditionCompile (.compile .condition e)
  | verdict {b v : Bindings} {d : Derived} {x : Expression.Expr}
      {outcome : Except Expression.Stop Expression.Value} (asked : r.condition ≠ "")
      (gets : Gets s r b d) (binds : conditionBindings b d = .ok v)
      (reads : Expression.read r.condition = .ok x)
      (evaluates : (conditionEnvironment s.library).evaluate x v = outcome)
      (finished : outcome ≠ .error .crash) (h : outcome ≠ .ok (.bool true)) :
      Fails s r .verdict .conditionRejected

section

variable {s : Setting} {r : Request}

theorem Resolves.unique {p p' : Provider} {b b' : Bindings} (h : Resolves s r p b)
    (h' : Resolves s r p' b') : p = p' ∧ b = b' := by
  have he := (Setting.resolve_eq_ok_iff.mpr h).symm.trans (Setting.resolve_eq_ok_iff.mpr h')
  cases he
  exact ⟨rfl, rfl⟩

theorem DerivesAll.unique {env : Environment} {b : Bindings} {m : KeyMap String} {d d' : Derived}
    (h : DerivesAll env b m d) (h' : DerivesAll env b m d') : d = d' := by
  have he := (evaluateMapping_eq_ok_iff.mpr h).symm.trans (evaluateMapping_eq_ok_iff.mpr h')
  cases he
  rfl

theorem Gets.unique {b b' : Bindings} {d d' : Derived} (h : Gets s r b d) (h' : Gets s r b' d') :
    b = b' ∧ d = d' := by
  obtain ⟨hm, hp, hd⟩ := h
  obtain ⟨hm', hp', hd'⟩ := h'
  cases hm.symm.trans hm'
  obtain ⟨rfl, rfl⟩ := hp.unique hp'
  exact ⟨rfl, hd.unique hd'⟩

theorem Evaluates.unique (hr : ∀ m, r.mapping = some m → KeyMap.Ordered m) {key : String}
    {outcome outcome' : Except Expression.Stop Expression.Value} (h : Evaluates s r key outcome)
    (h' : Evaluates s r key outcome') : outcome = outcome' := by
  obtain ⟨hm, he, hp, hx, rfl⟩ := h
  obtain ⟨hm', he', hp', hx', rfl⟩ := h'
  cases hm.symm.trans hm'
  cases (hr _ hm).eq_of_mem he he'
  obtain ⟨rfl, rfl⟩ := hp.unique hp'
  cases hx.symm.trans hx'
  rfl

theorem registry_resolve_eq_error_iff {providers : Provider.Registry} {payload : String} :
    (providers.resolve payload).outcome = .error () ↔
      ∀ p ∈ providers, ∃ e, (p.parse payload).outcome = .error e := by
  induction providers with
  | nil => exact iff_of_true rfl (by simp)
  | cons p providers ih =>
    rw [registry_resolve_cons, List.forall_mem_cons, ← ih]
    cases (p.parse payload).outcome with
    | ok b => simp
    | error e => simp

/-- The provider check fails exactly when no provider can be resolved, with the same error. -/
theorem resolve_eq_error_iff {e : Error} :
    (s.resolve r).outcome = .error e ↔ Fails s r .provider e := by
  cases hr : r.provider with
  | none =>
    rw [Setting.resolve_of_none hr, mapError_eq_error_iff]
    constructor
    · intro h
      obtain ⟨_, h, rfl⟩ := h
      exact .unresolved hr (registry_resolve_eq_error_iff.mp h)
    · intro h
      cases h with
      | unknown hn => cases hr.symm.trans hn
      | refused hn => cases hr.symm.trans hn
      | unresolved _ h => exact ⟨_, registry_resolve_eq_error_iff.mpr h, rfl⟩
  | some name =>
    rw [Setting.resolve_of_some hr]
    constructor
    · cases hf : s.providers.find? name with
      | none =>
        intro h
        cases h
        exact .unknown hr (find?_eq_none_iff.mp hf)
      | some p =>
        intro h
        obtain ⟨hp, before, after, hs, hb⟩ := find?_eq_some_iff.mp hf
        obtain ⟨_, he, rfl⟩ := mapError_eq_error_iff.mp (map_eq_error_iff.mp h)
        exact .refused hr hs hb hp he
    · intro h
      cases h with
      | unknown hn h =>
        cases hr.symm.trans hn
        rw [find?_eq_none_iff.mpr h]
      | refused hn hs hb hp h =>
        cases hr.symm.trans hn
        rw [find?_eq_some_iff.mpr ⟨hp, _, _, hs, hb⟩]
        exact map_eq_error_iff.mpr (mapError_eq_error_iff.mpr ⟨_, h, rfl⟩)
      | unresolved hn => cases hr.symm.trans hn

/-- The index is that of the first item that is no text. -/
theorem textsFrom_eq_error_iff {key : String} {index : Nat} {vs : List Expression.Value}
    {e : Error} : textsFrom key index vs = .error e ↔
      ∃ (texts : List String) (v : Expression.Value) (rest : List Expression.Value),
        vs = texts.map .string ++ v :: rest ∧ (∀ text, v ≠ .string text) ∧
        e = .wrongType key .list (.item v.kind (index + texts.length)) := by
  induction vs generalizing index with
  | nil => simp [textsFrom]
  | cons v vs ih =>
    by_cases hv : ∃ text, v = .string text
    · obtain ⟨text, rfl⟩ := hv
      rw [textsFrom, map_eq_error_iff, ih]
      constructor
      · intro h
        obtain ⟨texts, v, rest, rfl, hv, rfl⟩ := h
        refine ⟨text :: texts, v, rest, rfl, hv, ?_⟩
        rw [List.length_cons, Nat.add_assoc, Nat.add_comm 1]
      · intro h
        obtain ⟨texts, v, rest, he, hv, rfl⟩ := h
        cases texts with
        | nil => exact absurd (List.cons.inj he).1.symm (hv text)
        | cons text' texts =>
          refine ⟨texts, v, rest, (List.cons.inj he).2, hv, ?_⟩
          rw [List.length_cons, Nat.add_assoc, Nat.add_comm 1]
    · rw [not_exists] at hv
      have hf : textsFrom key index (v :: vs) =
          .error (.wrongType key .list (.item v.kind index)) := by
        cases v with
        | string text => exact absurd rfl (hv text)
        | _ => rfl
      rw [hf, Except.error.injEq]
      constructor
      · intro h
        subst h
        exact ⟨[], v, vs, rfl, hv, rfl⟩
      · intro h
        obtain ⟨texts, v', rest, he, -, rfl⟩ := h
        cases texts with
        | nil =>
          cases he
          rfl
        | cons text texts => exact absurd (List.cons.inj he).1 (hv text)

theorem textOf_eq_error_iff {key : String} {v : Expression.Value} {e : Error} :
    textOf key v = .error e ↔
      (∀ text, v ≠ .string text) ∧ e = .wrongType key .text (.value v.kind) := by
  cases v <;> simp [textOf, eq_comm]

/-- What is no list is named by its type, and a list with another item by the first such item and
its index. -/
theorem textsOf_eq_error_iff {key : String} {v : Expression.Value} {e : Error} :
    textsOf key v = .error e ↔
      ((∀ items, v ≠ .list items) ∧ e = .wrongType key .list (.value v.kind)) ∨
        ∃ (texts : List String) (w : Expression.Value) (rest : List Expression.Value),
          v = .list (texts.map .string ++ w :: rest) ∧ (∀ text, w ≠ .string text) ∧
          e = .wrongType key .list (.item w.kind texts.length) := by
  cases v with
  | list vs => simp [textsOf, textsFrom_eq_error_iff]
  | _ => simp [textsOf, eq_comm]

/-- The type check fails exactly when the value is not of the type of its key. -/
theorem attributeOf_eq_error_iff {key : String} {e : Error} :
    (∃ v, Evaluates s r key (.ok v) ∧ attributeOf key v = .error e) ↔
      Fails s r (.type key) e := by
  have hk : Key.read? key = some .groups ↔ key = groupsKey := Key.read?_eq_some_iff
  by_cases h : key = groupsKey
  · simp only [attributeOf, if_pos (hk.mpr h), map_eq_error_iff, textsOf_eq_error_iff]
    subst h
    constructor
    · intro h
      obtain ⟨v, hv, ⟨hl, rfl⟩ | ⟨texts, w, rest, rfl, hw, rfl⟩⟩ := h
      · exact .noList hv hl
      · exact .noTextIn hv hw
    · intro hf
      cases hf with
      | noText _ ho => exact absurd rfl ho
      | noList hv hl => exact ⟨_, hv, .inl ⟨hl, rfl⟩⟩
      | noTextIn hv hw => exact ⟨_, hv, .inr ⟨_, _, _, rfl, hw, rfl⟩⟩
  · simp only [attributeOf, if_neg (mt hk.mp h), map_eq_error_iff, textOf_eq_error_iff]
    constructor
    · intro h
      obtain ⟨v, hv, ht, rfl⟩ := h
      exact .noText hv h ht
    · intro hf
      cases hf with
      | noText hv _ ht => exact ⟨_, hv, ht, rfl⟩
      | noList => exact absurd rfl h
      | noTextIn => exact absurd rfl h

theorem Fails.of_name {key : String} {e : Error} (h : Fails s r (.name key) e) :
    ∃ m name, r.mapping = some m ∧ key = customKey name ∧ key ∈ KeyMap.keys m ∧ ¬ IsName name ∧
      e = .invalidAttributeName name := by
  cases h with
  | name hm hk hn => exact ⟨_, _, hm, rfl, hk, hn, rfl⟩

/-- Each check gives one error. -/
theorem Fails.unique (hr : ∀ m, r.mapping = some m → KeyMap.Ordered m) {c : Check} {e e' : Error}
    (h : Fails s r c e) (h' : Fails s r c e') : e = e' := by
  cases c with
  | payload => cases h; cases h'; rfl
  | missing => cases h; cases h'; rfl
  | empty => cases h; cases h'; rfl
  | key => cases h; cases h'; rfl
  | provider =>
    cases (resolve_eq_error_iff.mpr h).symm.trans (resolve_eq_error_iff.mpr h')
    rfl
  | mappingLength =>
    cases h with
    | mappingLength hm he _ =>
      cases h' with
      | mappingLength hm' he' _ =>
        cases hm.symm.trans hm'
        rw [(hr _ hm).eq_of_mem he he']
  | conditionLength => cases h; cases h'; rfl
  | name =>
    obtain ⟨_, name, _, rfl, _, _, rfl⟩ := h.of_name
    obtain ⟨_, name', _, hk, _, _, rfl⟩ := h'.of_name
    rw [customKey_inj.mp hk]
  | time => cases h; cases h'; rfl
  | compile =>
    cases h with
    | compile hm he hx =>
      cases h' with
      | compile hm' he' hx' =>
        cases hm.symm.trans hm'
        cases (hr _ hm).eq_of_mem he he'
        cases hx.symm.trans hx'
        rfl
  | evaluate =>
    -- both failures are of one entry over the bindings of one provider
    cases h with
    | evaluate h =>
      cases h' with
      | evaluate h' =>
        cases h.unique hr h'
        rfl
  | type =>
    obtain ⟨v, hv, ha⟩ := attributeOf_eq_error_iff.mpr h
    obtain ⟨v', hv', ha'⟩ := attributeOf_eq_error_iff.mpr h'
    cases hv.unique hr hv'
    cases ha.symm.trans ha'
    rfl
  | subject => cases h; cases h'; rfl
  | subjectLength =>
    cases h with
    | subjectLength hd hs _ =>
      cases h' with
      | subjectLength hd' hs' _ =>
        obtain ⟨-, rfl⟩ := hd.unique hd'
        cases hs.symm.trans hs'
        rfl
  | size =>
    cases h with
    | size hd _ =>
      cases h' with
      | size hd' _ =>
        obtain ⟨-, rfl⟩ := hd.unique hd'
        rfl
  | count =>
    cases h with
    | count hd _ =>
      cases h' with
      | count hd' _ =>
        obtain ⟨-, rfl⟩ := hd.unique hd'
        rfl
  | environment => cases h; cases h'; rfl
  | families =>
    cases h with
    | families _ hd hn he =>
      cases h' with
      | families _ hd' hn' he' =>
        obtain ⟨rfl, rfl⟩ := hd.unique hd'
        cases hn.symm.trans hn'
        cases he.symm.trans he'
        rfl
  | conditionCompile =>
    cases h with
    | conditionCompile _ he =>
      cases h' with
      | conditionCompile _ he' =>
        cases he.symm.trans he'
        rfl
  | verdict => cases h; cases h'; rfl

end

end ClaimMapping.Mapping
