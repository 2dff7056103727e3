import ClaimMapping.Proofs.CommandLine.Spelling

namespace ClaimMapping.CommandLine

/-- The values that an option was given, in the order of the arguments. -/
def valuesOf (f : Field) (given : List (Field × String)) : List String :=
  given.filterMap fun e => if e.1 = f then some e.2 else none

variable {f g : Field} {value : String} {given : List (Field × String)} {d d' : Draft}

theorem mem_valuesOf_iff : value ∈ valuesOf f given ↔ (f, value) ∈ given := by
  rw [valuesOf, List.mem_filterMap]
  constructor
  · rintro ⟨⟨g, v⟩, hmem, h⟩
    split_ifs at h with hg
    cases h
    exact hg ▸ hmem
  · intro hmem
    exact ⟨(f, value), hmem, if_pos rfl⟩

theorem valuesOf_cons_self (f : Field) (value : String) (given : List (Field × String)) :
    valuesOf f ((f, value) :: given) = value :: valuesOf f given :=
  List.filterMap_cons_some (if_pos rfl)

theorem valuesOf_cons_of_ne (h : g ≠ f) (value : String) (given : List (Field × String)) :
    valuesOf f ((g, value) :: given) = valuesOf f given :=
  List.filterMap_cons_none (if_neg h)

theorem valuesOf_cons (f g : Field) (value : String) (given : List (Field × String)) :
    valuesOf f ((g, value) :: given) =
      if g = f then value :: valuesOf f given else valuesOf f given := by
  split_ifs with h
  · rw [h, valuesOf_cons_self]
  · rw [valuesOf_cons_of_ne h]

theorem valuesOf_append (f : Field) (given more : List (Field × String)) :
    valuesOf f (given ++ more) = valuesOf f given ++ valuesOf f more := List.filterMap_append

theorem valuesOf_map (f g : Field) (values : List String) :
    valuesOf f (values.map (Prod.mk g)) = if g = f then values else [] := by
  induction values with
  | nil => split_ifs <;> rfl
  | cons value values ih =>
    rw [List.map_cons, valuesOf_cons, ih]
    split_ifs <;> rfl

/-- The value of an option that may be given once. -/
def Draft.single? (d : Draft) : Field → Option String
  | .payload => d.payload
  | .request => d.request
  | .provider => d.provider
  | .condition => d.condition
  | .mapping => none

/-- Gives an option its value, in place of one that it had; mappings are collected apart. -/
def Draft.set (d : Draft) (f : Field) (value : String) : Draft :=
  match f with
  | .payload => { d with payload := some value }
  | .request => { d with request := some value }
  | .provider => { d with provider := some value }
  | .condition => { d with condition := some value }
  | .mapping => d

theorem Draft.single?_set (d : Draft) (hf : f ≠ .mapping) (value : String) (g : Field) :
    (d.set f value).single? g = if g = f then some value else d.single? g := by
  cases f <;> cases g <;> first | rfl | exact absurd rfl hf

theorem Draft.mappings_set (d : Draft) (f : Field) (value : String) :
    (d.set f value).mappings = d.mappings := by
  cases f <;> rfl

theorem Draft.ext_single? (hsingle : ∀ f, f ≠ .mapping → d'.single? f = d.single? f)
    (hmappings : d'.mappings = d.mappings) : d' = d := by
  obtain ⟨payload, request, provider, mappings, condition⟩ := d
  obtain ⟨payload', request', provider', mappings', condition'⟩ := d'
  have hpayload : payload' = payload := hsingle .payload nofun
  have hrequest : request' = request := hsingle .request nofun
  have hprovider : provider' = provider := hsingle .provider nofun
  have hcondition : condition' = condition := hsingle .condition nofun
  have hmappings : mappings' = mappings := hmappings
  rw [hpayload, hrequest, hprovider, hcondition, hmappings]

theorem map_once?_eq_some_iff {current : Option String} {put : Option String → Draft} :
    (once? current value).map put = some d' ↔ current = none ∧ d' = put (some value) := by
  cases current <;> simp [once?, eq_comm]

theorem Draft.give?_mapping_eq_some_iff :
    d.give? .mapping value = some d' ↔
      ∃ e, readMapping? value = some e ∧ d' = { d with mappings := d.mappings ++ [e] } := by
  rw [give?, Option.map_eq_some_iff]
  simp only [eq_comm (a := d')]

/-- An option that may be given once is refused the second time, and so is an empty path. -/
theorem Draft.give?_single_eq_some_iff (hf : f ≠ .mapping) :
    d.give? f value = some d' ↔
      d.single? f = none ∧ (f, value) ≠ (.request, "") ∧ d' = d.set f value := by
  cases f with
  | mapping => exact absurd rfl hf
  | request =>
    rw [give?]
    split_ifs with hvalue
    · simp [hvalue]
    · rw [map_once?_eq_some_iff]
      simp [single?, set, hvalue]
  | payload | provider | condition =>
    rw [give?, map_once?_eq_some_iff]
    simp [single?, set]

/-- A path is not empty, and a mapping has an equals sign. -/
def IsReadable (e : Field × String) : Prop :=
  e ≠ (.request, "") ∧ (e.1 = .mapping → (readMapping? e.2).isSome)

/-- What options add to a draft. -/
structure Draft.Gains (d : Draft) (given : List (Field × String)) (d' : Draft) : Prop where
  readable : ∀ e ∈ given, IsReadable e
  once : ∀ f, f ≠ .mapping → (d'.single? f).toList = (d.single? f).toList ++ valuesOf f given
  mappings : d'.mappings = d.mappings ++ (valuesOf .mapping given).filterMap readMapping?

theorem toList_eq_append_cons_iff {α : Type} {o o' : Option α} {a : α} {as : List α} :
    o'.toList = o.toList ++ a :: as ↔ o = none ∧ o' = some a ∧ as = [] := by
  cases o <;> cases o' <;> simp

theorem toList_inj {α : Type} {o o' : Option α} : o.toList = o'.toList ↔ o = o' := by
  cases o <;> cases o' <;> simp

theorem Draft.gains_nil_iff : d.Gains [] d' ↔ d = d' := by
  constructor
  · intro h
    refine (ext_single? (fun f hf => ?_) ?_).symm
    · have honce := h.once f hf
      rw [valuesOf, List.filterMap_nil, List.append_nil] at honce
      exact toList_inj.mp honce
    · have hmappings := h.mappings
      rwa [valuesOf, List.filterMap_nil, List.filterMap_nil, List.append_nil] at hmappings
  · rintro rfl
    exact ⟨nofun, fun f _ => (List.append_nil _).symm, (List.append_nil _).symm⟩

theorem Draft.gains_cons_mapping_iff :
    d.Gains ((.mapping, value) :: given) d' ↔
      ∃ e, readMapping? value = some e ∧
        { d with mappings := d.mappings ++ [e] }.Gains given d' := by
  have hsame (e : String × String) (f : Field) :
      { d with mappings := d.mappings ++ [e] }.single? f = d.single? f := by
    cases f <;> rfl
  constructor
  · intro h
    obtain ⟨hfirst, hrest⟩ := List.forall_mem_cons.mp h.readable
    obtain ⟨e, he⟩ := Option.isSome_iff_exists.mp (hfirst.2 rfl)
    refine ⟨e, he, hrest, fun f hf => ?_, ?_⟩
    · rw [h.once f hf, hsame, valuesOf_cons_of_ne hf.symm]
    · rw [h.mappings, valuesOf_cons_self, List.filterMap_cons_some he, List.append_assoc]
      rfl
  · rintro ⟨e, he, h⟩
    have hfirst : IsReadable (.mapping, value) :=
      ⟨nofun, fun _ => Option.isSome_iff_exists.mpr ⟨e, he⟩⟩
    refine ⟨List.forall_mem_cons.mpr ⟨hfirst, h.readable⟩, fun f hf => ?_, ?_⟩
    · rw [h.once f hf, hsame, valuesOf_cons_of_ne hf.symm]
    · rw [h.mappings, valuesOf_cons_self, List.filterMap_cons_some he, List.append_assoc]
      rfl

theorem Draft.gains_cons_single_iff (hf : f ≠ .mapping) :
    d.Gains ((f, value) :: given) d' ↔
      d.single? f = none ∧ (f, value) ≠ (.request, "") ∧ (d.set f value).Gains given d' := by
  constructor
  · intro h
    have honce := h.once f hf
    rw [valuesOf_cons_self, toList_eq_append_cons_iff] at honce
    obtain ⟨hnone, hsome, hrest⟩ := honce
    obtain ⟨hfirst, hothers⟩ := List.forall_mem_cons.mp h.readable
    refine ⟨hnone, hfirst.1, hothers, fun g hg => ?_, ?_⟩
    · rw [single?_set d hf]
      by_cases hgf : g = f
      · rw [if_pos hgf, hgf, hsome, hrest, List.append_nil]
      · rw [if_neg hgf, h.once g hg, valuesOf_cons_of_ne (Ne.symm hgf)]
    · rw [h.mappings, mappings_set, valuesOf_cons_of_ne hf]
  · rintro ⟨hnone, hpath, h⟩
    have hfirst : IsReadable (f, value) := ⟨hpath, fun heq => absurd heq hf⟩
    refine ⟨List.forall_mem_cons.mpr ⟨hfirst, h.readable⟩, fun g hg => ?_, ?_⟩
    · rw [h.once g hg, single?_set d hf]
      by_cases hgf : g = f
      · rw [if_pos hgf, hgf, hnone, valuesOf_cons_self]
        rfl
      · rw [if_neg hgf, valuesOf_cons_of_ne (Ne.symm hgf)]
    · rw [h.mappings, mappings_set, valuesOf_cons_of_ne hf]

/-- Options are accepted when each but a mapping is given at most once, no path is empty and every
mapping has an equals sign. -/
theorem Draft.giveAll?_eq_some_iff : d.giveAll? given = some d' ↔ d.Gains given d' := by
  -- Each option leaves another draft to go on from, so the first draft is left free.
  induction given generalizing d with
  | nil =>
    rw [gains_nil_iff]
    exact Option.some_inj
  | cons e given ih =>
    obtain ⟨f, value⟩ := e
    have hcons : d.giveAll? ((f, value) :: given) = some d' ↔
        ∃ next, d.give? f value = some next ∧ next.Gains given d' := by
      rw [giveAll?, List.foldlM_cons, Option.bind_eq_bind, Option.bind_eq_some_iff]
      exact exists_congr fun next => and_congr_right fun _ => ih
    rw [hcons]
    by_cases hf : f = .mapping
    · subst hf
      simp only [give?_mapping_eq_some_iff, gains_cons_mapping_iff]
      constructor
      · rintro ⟨_, ⟨e, he, rfl⟩, h⟩
        exact ⟨e, he, h⟩
      · rintro ⟨e, he, h⟩
        exact ⟨_, ⟨e, he, rfl⟩, h⟩
    · simp only [give?_single_eq_some_iff hf, gains_cons_single_iff hf]
      constructor
      · rintro ⟨_, ⟨hnone, hpath, rfl⟩, h⟩
        exact ⟨hnone, hpath, h⟩
      · rintro ⟨hnone, hpath, h⟩
        exact ⟨_, ⟨hnone, hpath, rfl⟩, h⟩

/-- From the empty draft on, the single option has a value exactly when it was given that value. -/
theorem Draft.Gains.mem_iff (h : Draft.empty.Gains given d) (hf : f ≠ .mapping) {value : String} :
    (f, value) ∈ given ↔ d.single? f = some value := by
  have honce : (d.single? f).toList = valuesOf f given := by
    rw [h.once f hf]
    cases f <;> rfl
  rw [← mem_valuesOf_iff, ← honce, Option.mem_toList]

theorem Draft.Gains.eq_none (h : Draft.empty.Gains given d) (hf : f ≠ .mapping)
    (hnot : ∀ value, (f, value) ∉ given) : d.single? f = none := by
  cases hsingle : d.single? f with
  | none => rfl
  | some value => exact absurd ((h.mem_iff hf).mpr hsingle) (hnot value)

/-- What options come to does not depend on their order, but for the mappings. -/
theorem Draft.gains_of_perm {expected : List (Field × String)} (h : given.Perm expected)
    (hsingle : ∀ f, f ≠ .mapping → valuesOf f expected = (d.single? f).toList)
    (hreadable : ∀ e ∈ expected, IsReadable e)
    (hmappings : d.mappings = (valuesOf .mapping given).filterMap readMapping?) :
    Draft.empty.Gains given d where
  once f hf := by
    have hperm : (valuesOf f given).Perm (d.single? f).toList := hsingle f hf ▸ h.filterMap _
    have hempty : Draft.empty.single? f = none := by cases f <;> rfl
    rw [hempty]
    cases hvalue : d.single? f with
    | none =>
      rw [hvalue] at hperm
      exact (List.perm_nil.mp hperm).symm
    | some value =>
      rw [hvalue] at hperm
      exact (List.perm_singleton.mp hperm).symm
  readable e hmem := hreadable e (h.subset hmem)
  mappings := hmappings

def Options.draft (o : Options) : Draft :=
  ⟨some o.payload, o.request, o.provider, o.mappings, o.condition⟩

theorem Draft.finish_eq_run_iff {o : Options} : d.finish = .run o ↔ d = o.draft := by
  obtain ⟨payload, request, provider, mappings, condition⟩ := d
  cases payload with
  | none => simp [finish, Options.draft]
  | some payload =>
    rw [finish, Invocation.run.injEq]
    constructor
    · rintro rfl
      rfl
    · intro h
      cases h
      rfl

/-- The arguments that spell some options ask for the run which those options come to. -/
theorem read_eq_run_iff {arguments : List String} (h : Spells arguments given) {o : Options} :
    Invocation.read arguments = .run o ↔ Draft.empty.Gains given o.draft := by
  rw [read_of_spells h, ← Draft.giveAll?_eq_some_iff]
  cases hgive : Draft.empty.giveAll? given with
  | none => simp
  | some d => rw [Option.some_inj, ← Draft.finish_eq_run_iff]

end ClaimMapping.CommandLine
