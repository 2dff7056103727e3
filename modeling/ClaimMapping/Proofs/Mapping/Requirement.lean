import ClaimMapping.Mapping.Run
import ClaimMapping.Proofs.Attribute.Key
import ClaimMapping.Proofs.Journal.Outcome
import ClaimMapping.Proofs.KeyMap.Lookup
import ClaimMapping.Proofs.Mapping.TimeGuard
import ClaimMapping.Proofs.Text.Utf8

namespace ClaimMapping.Mapping

open Attribute
open Expression (Bindings Environment Library)
open Journal (bind_eq_ok_iff seq_eq_ok_iff mapError_eq_ok_iff map_eq_ok_iff)

/-- A reserved name, or a custom key with any name. -/
def IsTargetKey (key : String) : Prop :=
  key = subjectKey ∨ key = groupsKey ∨ ∃ name, key = customKey name

theorem isNone_read?_iff {key : String} : (Key.read? key).isNone = true ↔ ¬ IsTargetKey key := by
  rw [Option.isNone_iff_eq_none, Key.read?_eq_none_iff, IsTargetKey]
  simp only [not_or, not_exists, ne_eq]

/-- A request needs a payload and a mapping whose keys are those of target attributes. -/
theorem Request.check_eq_ok_iff {r : Request} {m : KeyMap String} :
    r.check = .ok m ↔
      r.payload ≠ "" ∧ r.mapping = some m ∧ m ≠ [] ∧ ∀ key ∈ KeyMap.keys m, IsTargetKey key := by
  unfold Request.check
  by_cases hp : r.payload = ""
  · simp [hp]
  rw [if_neg hp]
  cases hm : r.mapping with
  | none => simp
  | some mapping =>
    cases mapping with
    | nil =>
      constructor
      · intro h
        cases h
      · intro h
        obtain ⟨-, he, hn, -⟩ := h
        cases he
        exact absurd rfl hn
    | cons e mapping =>
      dsimp only
      cases hf : (KeyMap.keys (e :: mapping)).find? fun key => (Key.read? key).isNone with
      | some key =>
        constructor
        · intro h
          cases h
        · intro h
          obtain ⟨-, he, -, hk⟩ := h
          cases he
          have hn : (Key.read? key).isNone = true := by simpa using List.find?_some hf
          exact absurd (hk key (List.mem_of_find?_eq_some hf)) (isNone_read?_iff.mp hn)
      | none =>
        have hk : ∀ key ∈ KeyMap.keys (e :: mapping), IsTargetKey key := by
          intro key hkey
          have hn := List.find?_eq_none.mp hf key hkey
          rwa [isNone_read?_iff, not_not] at hn
        constructor
        · intro h
          cases h
          exact ⟨hp, rfl, List.cons_ne_nil _ _, hk⟩
        · intro h
          obtain ⟨-, he, -, -⟩ := h
          cases he
          rfl

/-- The provider of a request, with the bindings that it reads from the payload: the first one of
the name that the request gives, or else the first one that accepts the payload. -/
inductive Resolves (s : Setting) (r : Request) (p : Provider) (b : Bindings) : Prop where
  | named (name : String) (before after : List Provider) (given : r.provider = some name)
      (split : s.providers = before ++ p :: after) (others : ∀ q ∈ before, q.name ≠ name)
      (match_name : p.name = name) (accepts : (p.parse r.payload).outcome = .ok b)
  | first (before after : List Provider) (given : r.provider = none)
      (split : s.providers = before ++ p :: after)
      (others : ∀ q ∈ before, ∃ e, (q.parse r.payload).outcome = .error e)
      (accepts : (p.parse r.payload).outcome = .ok b)

theorem registry_resolve_cons (p : Provider) (providers : Provider.Registry) (payload : String) :
    (Provider.Registry.resolve (p :: providers) payload).outcome =
      match (p.parse payload).outcome with
      | .ok b => .ok (p, b)
      | .error _ => (providers.resolve payload).outcome := by
  simp only [Provider.Registry.resolve]
  cases (p.parse payload).outcome <;> rfl

theorem registry_resolve_eq_ok_iff {providers : Provider.Registry} {payload : String}
    {p : Provider} {b : Bindings} :
    (providers.resolve payload).outcome = .ok (p, b) ↔
      ∃ before after, providers = before ++ p :: after ∧
        (∀ q ∈ before, ∃ e, (q.parse payload).outcome = .error e) ∧
        (p.parse payload).outcome = .ok b := by
  induction providers with
  | nil =>
    constructor
    · intro h
      cases h
    · intro h
      obtain ⟨before, after, h, -⟩ := h
      simp at h
  | cons q providers ih =>
    rw [registry_resolve_cons]
    cases hq : (q.parse payload).outcome with
    | ok c =>
      -- a provider that accepts has none in front of it that does
      constructor
      · intro h
        cases h
        exact ⟨[], providers, rfl, by simp, hq⟩
      · intro h
        obtain ⟨before, after, h, hb, hp⟩ := h
        cases before with
        | nil =>
          cases h
          rw [hq] at hp
          cases hp
          rfl
        | cons q' before =>
          cases h
          obtain ⟨e, he⟩ := hb q (by simp)
          rw [hq] at he
          cases he
    | error e =>
      dsimp only
      rw [ih]
      constructor
      · intro h
        obtain ⟨before, after, rfl, hb, hp⟩ := h
        exact ⟨q :: before, after, rfl, List.forall_mem_cons.mpr ⟨⟨e, hq⟩, hb⟩, hp⟩
      · intro h
        obtain ⟨before, after, h, hb, hp⟩ := h
        cases before with
        | nil =>
          cases h
          rw [hq] at hp
          cases hp
        | cons q' before =>
          cases h
          exact ⟨before, after, rfl, (List.forall_mem_cons.mp hb).2, hp⟩

theorem find?_eq_some_iff {providers : Provider.Registry} {name : String} {p : Provider} :
    providers.find? name = some p ↔
      p.name = name ∧ ∃ before after, providers = before ++ p :: after ∧
        ∀ q ∈ before, q.name ≠ name := by
  simp [Provider.Registry.find?, List.find?_eq_some_iff_append]

theorem find?_eq_none_iff {providers : Provider.Registry} {name : String} :
    providers.find? name = none ↔ ∀ p ∈ providers, p.name ≠ name := by
  simp [Provider.Registry.find?]

theorem Setting.resolve_of_none {r : Request} (h : r.provider = none) (s : Setting) :
    (s.resolve r).outcome =
      (s.providers.resolve r.payload).outcome.mapError fun _ => .noProviderFound := by
  rw [resolve, h]
  rfl

theorem Setting.resolve_of_some {r : Request} {name : String} (h : r.provider = some name)
    (s : Setting) :
    (s.resolve r).outcome =
      match s.providers.find? name with
      | none => .error (.unknownProvider name)
      | some p =>
        ((p.parse r.payload).outcome.mapError (Error.parse name)).map fun b => (p, b) := by
  rw [resolve, h]
  dsimp only
  cases s.providers.find? name <;> rfl

/-- The provider is the named one, or else the first that accepts the payload. -/
theorem Setting.resolve_eq_ok_iff {s : Setting} {r : Request} {p : Provider} {b : Bindings} :
    (s.resolve r).outcome = .ok (p, b) ↔ Resolves s r p b := by
  cases hr : r.provider with
  | none =>
    rw [resolve_of_none hr, mapError_eq_ok_iff, registry_resolve_eq_ok_iff]
    constructor
    · intro h
      obtain ⟨before, after, hs, hb, hp⟩ := h
      exact .first before after hr hs hb hp
    · intro h
      rcases h with ⟨name, _, _, hn⟩ | ⟨before, after, -, hs, hb, hp⟩
      · rw [hr] at hn
        cases hn
      · exact ⟨before, after, hs, hb, hp⟩
  | some name =>
    rw [resolve_of_some hr]
    constructor
    · cases hf : s.providers.find? name with
      | none =>
        intro h
        cases h
      | some q =>
        obtain ⟨hq, before, after, hs, hb⟩ := find?_eq_some_iff.mp hf
        intro h
        obtain ⟨c, hc, he⟩ := map_eq_ok_iff.mp h
        cases he
        exact .named name before after hr hs hb hq (mapError_eq_ok_iff.mp hc)
    · intro h
      rcases h with ⟨name', before, after, hn, hs, hb, hp, ha⟩ | ⟨_, _, hn⟩
      · rw [hr, Option.some.injEq] at hn
        subst hn
        rw [find?_eq_some_iff.mpr ⟨hp, before, after, hs, hb⟩]
        exact map_eq_ok_iff.mpr ⟨b, mapError_eq_ok_iff.mpr ha, rfl⟩
      · rw [hr] at hn
        cases hn

theorem checkLength_eq_ok_iff {target : Target} {source : String} {limit : Nat} :
    checkLength target source limit = .ok () ↔ source.utf8ByteSize ≤ limit := by
  rw [checkLength, byteSize_eq_utf8ByteSize]
  by_cases h : limit < source.utf8ByteSize <;> simp [h, not_lt.mp]

theorem checkLengths_eq_ok_iff {m : List (String × String)} :
    checkLengths m = .ok () ↔ ∀ e ∈ m, e.2.utf8ByteSize ≤ 2048 := by
  induction m with
  | nil => simp [checkLengths]
  | cons e m ih =>
    rw [checkLengths, seq_eq_ok_iff, List.forall_mem_cons, ← ih, checkLength_eq_ok_iff]
    rfl

theorem invalidName?_eq_some_iff {key name : String} :
    invalidName? key = some name ↔ key = customKey name ∧ ¬ IsName name := by
  unfold invalidName?
  split
  next n h =>
    obtain rfl := Key.read?_eq_some_iff.mp h
    rw [← isValidName_iff]
    by_cases hv : isValidName n = true
    · rw [if_pos hv]
      constructor
      · intro h
        cases h
      · intro h
        obtain ⟨he, hn⟩ := h
        rw [customKey_inj.mp he] at hv
        exact absurd hv hn
    · rw [if_neg hv, Option.some.injEq, Key.text, customKey_inj]
      constructor
      · intro h
        subst h
        exact ⟨rfl, hv⟩
      · exact And.left
  next h =>
    constructor
    · intro h
      cases h
    · intro h
      obtain ⟨rfl, -⟩ := h
      exact absurd (Key.read?_customKey name) (h name)

theorem checkNames_eq_ok_iff {keys : List String} :
    checkNames keys = .ok () ↔ ∀ name, customKey name ∈ keys → IsName name := by
  unfold checkNames
  cases hf : keys.findSome? invalidName? with
  | none =>
    refine iff_of_true rfl fun name hm => ?_
    by_contra hn
    have hk := List.findSome?_eq_none_iff.mp hf _ hm
    rw [invalidName?_eq_some_iff.mpr ⟨rfl, hn⟩] at hk
    cases hk
  | some name =>
    refine iff_of_false (fun h => by cases h) fun h => ?_
    obtain ⟨key, hm, hk⟩ := List.exists_of_findSome?_eq_some hf
    obtain ⟨rfl, hn⟩ := invalidName?_eq_some_iff.mp hk
    exact hn (h name hm)

theorem checkTimes_eq_ok_iff {sources : List String} :
    checkTimes sources = .ok () ↔ ∀ source ∈ sources, ¬ MakesTimeOfNumber source := by
  have hany : (sources.any fun source => makesTimeOfNumber source.toList) = true ↔
      ∃ source ∈ sources, MakesTimeOfNumber source := by
    simp only [List.any_eq_true, makesTimeOfNumber_iff]
  unfold checkTimes
  split_ifs with h
  · rw [hany] at h
    simpa using h
  · rw [hany] at h
    simpa using h

/-- All that is asked of the sources before they are evaluated. -/
theorem checkSources_eq_ok_iff {m : KeyMap String} {condition : String} :
    checkSources m condition = .ok () ↔
      (∀ e ∈ m, e.2.utf8ByteSize ≤ 2048) ∧ condition.utf8ByteSize ≤ 4096 ∧
        (∀ name, customKey name ∈ KeyMap.keys m → IsName name) ∧
        (∀ e ∈ m, ¬ MakesTimeOfNumber e.2) ∧ ¬ MakesTimeOfNumber condition := by
  rw [checkSources, seq_eq_ok_iff, seq_eq_ok_iff, seq_eq_ok_iff, checkLengths_eq_ok_iff,
    checkLength_eq_ok_iff, checkNames_eq_ok_iff, checkTimes_eq_ok_iff, List.forall_mem_append,
    List.forall_mem_map, List.forall_mem_singleton]
  rfl

/-- The value that an attribute gets from its source: a list of texts for the groups, a text for
every other key. -/
inductive Derives (env : Environment) (b : Bindings) (key source : String) : Value → Prop where
  | list (e : Expression.Expr) (items : List String) (is_groups : key = groupsKey)
      (reads : Expression.read source = .ok e)
      (gives : env.evaluate e b = .ok (.list (items.map .string))) :
      Derives env b key source (.list items)
  | text (e : Expression.Expr) (s : String) (other : key ≠ groupsKey)
      (reads : Expression.read source = .ok e)
      (gives : env.evaluate e b = .ok (.string s)) : Derives env b key source (.text s)

/-- An attribute for each entry of the mapping, in the same order. -/
def DerivesAll (env : Environment) (b : Bindings) (m : KeyMap String) (d : Derived) : Prop :=
  List.Forall₂ (fun e a => a.1 = e.1 ∧ Derives env b e.1 e.2 a.2) m d

theorem evaluateSource_eq_ok_iff {env : Environment} {b : Bindings} {target : Target}
    {source : String} {v : Expression.Value} :
    evaluateSource env b target source = .ok v ↔
      ∃ e, Expression.read source = .ok e ∧ env.evaluate e b = .ok v := by
  simp only [evaluateSource, bind_eq_ok_iff, mapError_eq_ok_iff]

theorem textsFrom_eq_ok_iff {key : String} {index : Nat} {vs : List Expression.Value}
    {items : List String} : textsFrom key index vs = .ok items ↔ vs = items.map .string := by
  induction vs generalizing index items with
  | nil => simp [textsFrom, eq_comm]
  | cons v vs ih =>
    unfold textsFrom
    cases v with
    | string s =>
      dsimp only
      rw [map_eq_ok_iff]
      simp only [ih]
      cases items with
      | nil => simp
      | cons item items => simp [and_comm, eq_comm]
    | _ => cases items <;> simp

/-- Groups are a list of texts, every other attribute is a text. -/
theorem attributeOf_eq_ok_iff {key : String} {v : Expression.Value} {a : Value} :
    attributeOf key v = .ok a ↔
      (key = groupsKey ∧ ∃ items, v = .list (items.map .string) ∧ a = .list items) ∨
        (key ≠ groupsKey ∧ ∃ s, v = .string s ∧ a = .text s) := by
  unfold attributeOf
  have hk : Key.read? key = some .groups ↔ key = groupsKey := Key.read?_eq_some_iff
  by_cases h : key = groupsKey
  · rw [if_pos (hk.mpr h), map_eq_ok_iff]
    simp only [h, true_and, ne_eq, not_true_eq_false, false_and, or_false]
    cases v with
    | list vs => simp [textsOf, textsFrom_eq_ok_iff, @eq_comm _ a]
    | _ => simp [textsOf]
  · rw [if_neg (mt hk.mp h), map_eq_ok_iff]
    simp only [h, false_and, ne_eq, not_false_eq_true, true_and, false_or]
    cases v with
    | string s => simp [textOf, @eq_comm _ a]
    | _ => simp [textOf]

theorem evaluateEntry_outcome (env : Environment) (b : Bindings) (key source : String) :
    (evaluateEntry env b key source).outcome =
      evaluateSource env b (.attribute key) source >>= fun v =>
        (attributeOf key v).mapError .error := by
  simp only [evaluateEntry, Journal.Traced.bind_outcome, Journal.Traced.lift_outcome,
    Journal.Traced.note_outcome]
  rfl

theorem evaluateEntry_eq_ok_iff {env : Environment} {b : Bindings} {key source : String}
    {a : Value} :
    (evaluateEntry env b key source).outcome = .ok a ↔ Derives env b key source a := by
  simp only [evaluateEntry_outcome, bind_eq_ok_iff, mapError_eq_ok_iff, evaluateSource_eq_ok_iff,
    attributeOf_eq_ok_iff]
  constructor
  · intro h
    obtain ⟨v, ⟨e, hr, hv⟩, ⟨hk, items, rfl, rfl⟩ | ⟨hk, s, rfl, rfl⟩⟩ := h
    · exact .list e items hk hr hv
    · exact .text e s hk hr hv
  · intro h
    rcases h with ⟨e, items, hk, hr, hv⟩ | ⟨e, s, hk, hr, hv⟩
    · exact ⟨_, ⟨e, hr, hv⟩, .inl ⟨hk, items, rfl, rfl⟩⟩
    · exact ⟨_, ⟨e, hr, hv⟩, .inr ⟨hk, s, rfl, rfl⟩⟩

theorem evaluateMapping_eq_ok_iff {env : Environment} {b : Bindings} {m : KeyMap String}
    {d : Derived} : (evaluateMapping env b m).outcome = .ok d ↔ DerivesAll env b m d := by
  induction m generalizing d with
  | nil => simp [evaluateMapping, DerivesAll, eq_comm]
  | cons e m ih =>
    obtain ⟨key, source⟩ := e
    simp only [evaluateMapping, Journal.Traced.bind_outcome, bind_eq_ok_iff,
      evaluateEntry_eq_ok_iff, ih, Journal.Traced.pure_outcome, Except.ok.injEq]
    constructor
    · intro h
      obtain ⟨a, ha, rest, hd, rfl⟩ := h
      exact .cons ⟨rfl, ha⟩ hd
    · intro h
      rcases h with _ | ⟨⟨hk, ha⟩, hd⟩
      exact ⟨_, ha, _, hd, by rw [← show _ = key from hk]⟩

/-- The texts that a value is made of. -/
def textsIn : Value → List String
  | .text s => [s]
  | .list items => items

/-- The UTF-8 bytes of all texts of the attributes. -/
def totalBytes (d : Derived) : Nat :=
  (d.map fun e => ((textsIn e.2).map String.utf8ByteSize).sum).sum

/-- How many keys begin with `attribute.`. -/
def customKeys (d : Derived) : Nat :=
  (KeyMap.keys d).countP fun key => "attribute.".toList.isPrefixOf key.toList

theorem size_eq_totalBytes (d : Derived) : d.size = totalBytes d := by
  have hv (v : Value) : v.size = ((textsIn v).map String.utf8ByteSize).sum := by
    cases v with
    | text s => simp [Value.size, textsIn, byteSize_eq_utf8ByteSize]
    | list items =>
      rw [Value.size, textsIn, List.sum_eq_foldr, List.foldr_map]
      simp only [byteSize_eq_utf8ByteSize]
  rw [Derived.size, totalBytes, List.sum_eq_foldr, List.foldr_map]
  simp only [hv]

theorem customCount_eq_customKeys (d : Derived) : d.customCount = customKeys d := by
  rw [Derived.customCount, customKeys, KeyMap.keys, List.countP_map, List.countP_eq_length_filter]
  simp only [Function.comp_def, isCustomKey_eq_isPrefixOf]

theorem text?_eq_some_iff {v : Value} {s : String} : v.text? = some s ↔ v = .text s := by
  cases v <;> simp [Value.text?]

theorem subject_eq_some_iff {d : Derived} {subject : String} :
    (KeyMap.get? d subjectKey).bind Value.text? = some subject ↔
      KeyMap.get? d subjectKey = some (.text subject) := by
  simp only [Option.bind_eq_some_iff, text?_eq_some_iff, exists_eq_right]

theorem checkSubject_eq_ok_iff {d : Derived} :
    checkSubject d = .ok () ↔
      ∃ subject, KeyMap.get? d subjectKey = some (.text subject) ∧ subject.utf8ByteSize ≤ 127 := by
  unfold checkSubject
  cases hs : (KeyMap.get? d subjectKey).bind Value.text? with
  | none =>
    refine iff_of_false (fun h => by cases h) ?_
    intro h
    obtain ⟨subject, h, -⟩ := h
    rw [subject_eq_some_iff.mpr h] at hs
    cases hs
  | some subject =>
    rw [subject_eq_some_iff] at hs
    simp only [byteSize_eq_utf8ByteSize, subjectLimit, hs, Option.some.injEq, Value.text.injEq,
      exists_eq_left']
    split_ifs with h
    · simpa using h
    · simpa using h

theorem checkSize_eq_ok_iff {d : Derived} : checkSize d = .ok () ↔ totalBytes d ≤ 8192 := by
  rw [checkSize, size_eq_totalBytes, attributesLimit]
  split_ifs with h <;> simpa using h

theorem checkCount_eq_ok_iff {d : Derived} : checkCount d = .ok () ↔ customKeys d ≤ 50 := by
  rw [checkCount, customCount_eq_customKeys, customLimit]
  split_ifs with h <;> simpa using h

/-- All that is asked of the attributes together. -/
theorem checkDerived_eq_ok_iff {d : Derived} :
    checkDerived d = .ok () ↔
      (∃ subject, KeyMap.get? d subjectKey = some (.text subject) ∧ subject.utf8ByteSize ≤ 127) ∧
        totalBytes d ≤ 8192 ∧ customKeys d ≤ 50 := by
  rw [checkDerived, seq_eq_ok_iff, seq_eq_ok_iff, checkSubject_eq_ok_iff, checkSize_eq_ok_iff,
    checkCount_eq_ok_iff]

/-- A condition that is empty, or whose variables can be bound and whose value over them is true. -/
def Admits (l : Library) (condition : String) (b : Bindings) (d : Derived) : Prop :=
  condition = "" ∨ ∃ v e, conditionBindings b d = .ok v ∧ Expression.read condition = .ok e ∧
    (conditionEnvironment l).evaluate e v = .ok (.bool true)

theorem verdict_eq_ok_iff {outcome : Except Expression.Stop Expression.Value} :
    (verdict outcome).outcome = .ok () ↔ outcome = .ok (.bool true) := by
  have hr {n : Journal.Note} {e : Stop} :
      (Journal.Traced.note n >>= fun _ =>
        (Journal.Traced.refuse e : Journal.Traced Stop Unit)).outcome ≠ .ok () := by
    intro h
    cases h
  unfold verdict
  split
  next => exact iff_of_true rfl rfl
  next v hv =>
    refine iff_of_false hr fun h => hv ?_
    cases h
    rfl
  next => exact iff_of_false hr fun h => by cases h
  next => exact iff_of_false (fun h => by cases h) fun h => by cases h

theorem checkCondition_outcome (l : Library) (condition : String) (b : Bindings) (d : Derived) :
    (checkCondition l condition b d).outcome =
      (conditionBindings b d).mapError .error >>= fun v =>
        (Expression.read condition).mapError (Stop.ofReading .condition) >>= fun e =>
          (verdict ((conditionEnvironment l).evaluate e v)).outcome := by
  simp only [checkCondition, Journal.Traced.bind_outcome, Journal.Traced.lift_outcome]

theorem acceptCondition_outcome {condition : String} (h : condition ≠ "") (l : Library)
    (b : Bindings) (d : Derived) :
    (acceptCondition l condition b d).outcome = (checkCondition l condition b d).outcome := by
  rw [acceptCondition, if_neg h, Journal.Traced.bind_outcome]
  cases (checkCondition l condition b d).outcome <;> rfl

/-- A condition accepts when it is empty, or when it can be read and is true of the variables. -/
theorem acceptCondition_eq_ok_iff {l : Library} {condition : String} {b : Bindings} {d : Derived} :
    (acceptCondition l condition b d).outcome = .ok () ↔ Admits l condition b d := by
  unfold Admits
  by_cases h : condition = ""
  · simp [acceptCondition, h]
  · simp only [acceptCondition_outcome h, checkCondition_outcome, bind_eq_ok_iff,
      mapError_eq_ok_iff, verdict_eq_ok_iff, h, false_or]
    constructor
    · intro h
      obtain ⟨v, hv, e, he, ht⟩ := h
      exact ⟨v, e, hv, he, ht⟩
    · intro h
      obtain ⟨v, e, hv, he, ht⟩ := h
      exact ⟨v, hv, e, he, ht⟩

/-- The stages of a run in a row, without their notes. -/
theorem run_outcome (s : Setting) (r : Request) :
    (s.run r).outcome = (r.check.mapError .error >>= fun m =>
      (s.resolve r).outcome.mapError .error >>= fun (p, b) =>
        (checkSources m r.condition).mapError .error >>= fun () =>
          (evaluateMapping ⟨p.declarations, s.library⟩ b m).outcome >>= fun d =>
            (checkDerived d).mapError .error >>= fun () =>
              (acceptCondition s.library r.condition b d).outcome >>= fun () => .ok d) := by
  simp only [Setting.run, Journal.Traced.bind_outcome, Journal.Traced.lift_outcome,
    Journal.Traced.mapError_outcome, Journal.Traced.note_outcome, Journal.Traced.pure_outcome]
  rfl

end ClaimMapping.Mapping
