import ClaimMapping.Proofs.CommandLine.Draft
import ClaimMapping.Proofs.CommandLine.RequestFile

namespace ClaimMapping.CommandLine

open Mapping (Request)

variable {given : List (Field × String)}

/-- The first equals sign stands between a key and its expression; blanks around either do not
count. -/
def Assigns (text key expression : String) : Prop :=
  ∃ front back : String, text = front ++ "=" ++ back ∧ '=' ∉ front.toList ∧
    Text.trim front = key ∧ Text.trim back = expression

theorem readMapping?_eq_some_iff {text key expression : String} :
    readMapping? text = some (key, expression) ↔ Assigns text key expression := by
  constructor
  · intro h
    obtain ⟨⟨front, back⟩, hbreak, h⟩ := Option.bind_eq_some_iff.mp h
    obtain ⟨hfront, htext⟩ := Text.breakChar?_eq_some_iff.mp hbreak
    cases h
    refine ⟨String.ofList front, String.ofList back, ?_, by rwa [String.toList_ofList], rfl, rfl⟩
    rw [← String.toList_inj, htext]
    simp
  · rintro ⟨front, back, rfl, hfront, rfl, rfl⟩
    have hbreak : Text.breakChar? '=' (front ++ "=" ++ back).toList =
        some (front.toList, back.toList) :=
      Text.breakChar?_eq_some_iff.mpr ⟨hfront, by simp⟩
    rw [readMapping?, hbreak]
    simp only [Option.bind_eq_bind, Option.bind_some, String.ofList_toList]
    rfl

/-- Of the mappings that are given for a key the last one counts, and where there is none the entry
of the file. -/
structure Overrides (given : List (Field × String)) (base m : KeyMap String) : Prop where
  ordered : KeyMap.Ordered m
  last : ∀ before text after key expression, given = before ++ (.mapping, text) :: after →
    Assigns text key expression →
    (∀ text' expression', (.mapping, text') ∈ after → ¬ Assigns text' key expression') →
    KeyMap.get? m key = some expression
  other : ∀ key,
    (∀ text expression, (.mapping, text) ∈ given → ¬ Assigns text key expression) →
    KeyMap.get? m key = KeyMap.get? base key

/-- A request that options, surroundings and file make together. An option that is given counts
even if it is empty. -/
structure Combines (given : List (Field × String)) (ambient : Option String) (file : RequestFile)
    (r : Request) : Prop where
  mapping : ∃ m, r.mapping = some m ∧ Overrides given file.mapping m
  condition : ∀ condition, (.condition, condition) ∈ given → r.condition = condition
  file_condition : (∀ condition, (.condition, condition) ∉ given) → r.condition = file.condition
  provider : ∀ name, (.provider, name) ∈ given → r.provider = some name
  ambient_provider : (∀ name, (.provider, name) ∉ given) →
    ∀ name, ambient = some name → r.provider = some name
  file_provider : (∀ name, (.provider, name) ∉ given) → ambient = none →
    r.provider = file.provider

/-- Of the mappings that options give for one key the last one counts, and the file has the keys
that no option gives. -/
theorem overrides_insertAll {base : KeyMap String} (hbase : KeyMap.Ordered base)
    (given : List (Field × String)) :
    Overrides given base
      (KeyMap.insertAll base ((valuesOf .mapping given).filterMap readMapping?)) where
  ordered := hbase.insertAll _
  last before text after key expression hgiven hassigns hafter := by
    subst hgiven
    rw [valuesOf_append, valuesOf_cons_self, List.filterMap_append,
      List.filterMap_cons_some (readMapping?_eq_some_iff.mpr hassigns)]
    refine KeyMap.get?_insertAll_last base _ expression fun e he hkey => ?_
    obtain ⟨text', htext', hread⟩ := List.mem_filterMap.mp he
    refine hafter text' e.2 (mem_valuesOf_iff.mp htext') (readMapping?_eq_some_iff.mp ?_)
    rw [hread, ← hkey]
  other key hnone := by
    refine KeyMap.get?_insertAll_of_forall_ne (fun e he hkey => ?_) base
    obtain ⟨text, htext, hread⟩ := List.mem_filterMap.mp he
    refine hnone text e.2 (mem_valuesOf_iff.mp htext) (readMapping?_eq_some_iff.mp ?_)
    rw [hread, ← hkey]

/-- The options override what the file says, field by field. -/
theorem combines_of_gains {o : Options} (hd : Draft.empty.Gains given o.draft)
    {file : RequestFile} (hfile : KeyMap.Ordered file.mapping) (ambient : Option String)
    (payload : String) : Combines given ambient file (file.combine o ambient payload) := by
  have hmappings : o.mappings = (valuesOf .mapping given).filterMap readMapping? := hd.mappings
  constructor
  case mapping =>
    refine ⟨KeyMap.insertAll file.mapping o.mappings, rfl, ?_⟩
    rw [hmappings]
    exact overrides_insertAll hfile given
  case condition =>
    intro condition hmem
    have hcondition : o.condition = some condition := (hd.mem_iff (f := .condition) nofun).mp hmem
    rw [RequestFile.combine, hcondition]
    rfl
  case file_condition =>
    intro hnot
    have hcondition : o.condition = none := hd.eq_none (f := .condition) nofun hnot
    rw [RequestFile.combine, hcondition]
    rfl
  case provider =>
    intro name hmem
    have hprovider : o.provider = some name := (hd.mem_iff (f := .provider) nofun).mp hmem
    rw [RequestFile.combine, hprovider]
    rfl
  case ambient_provider =>
    intro hnot name hambient
    have hprovider : o.provider = none := hd.eq_none (f := .provider) nofun hnot
    rw [RequestFile.combine, hprovider, hambient]
    rfl
  case file_provider =>
    intro hnot hambient
    have hprovider : o.provider = none := hd.eq_none (f := .provider) nofun hnot
    rw [RequestFile.combine, hprovider, hambient]
    rfl

/-- The value of an option that gives one entry of a mapping. -/
def entryText (e : String × String) : String := e.1 ++ "=" ++ e.2

/-- The options that say what a file says. -/
def RequestFile.options (file : RequestFile) : List (Field × String) :=
  (file.mapping.map entryText).map (Prod.mk .mapping) ++
    (.condition, file.condition) :: file.provider.toList.map (Prod.mk .provider)

/-- No key has an equals sign, and neither keys nor expressions have blanks around them. -/
def IsTidy (m : KeyMap String) : Prop :=
  ∀ e ∈ m, '=' ∉ e.1.toList ∧ Text.trim e.1 = e.1 ∧ Text.trim e.2 = e.2

theorem readMapping?_entryText {m : KeyMap String} (h : IsTidy m) {e : String × String}
    (he : e ∈ m) : readMapping? (entryText e) = some e := by
  obtain ⟨hkey, htrim, htrim'⟩ := h e he
  exact readMapping?_eq_some_iff.mpr ⟨e.1, e.2, rfl, hkey, htrim, htrim'⟩

theorem filterMap_entryText {m : KeyMap String} (h : IsTidy m) :
    (m.map entryText).filterMap readMapping? = m := by
  induction m with
  | nil => rfl
  | cons e m ih =>
    have hfirst := readMapping?_entryText h List.mem_cons_self
    rw [List.map_cons, List.filterMap_cons_some hfirst,
      ih fun e he => h e (List.mem_cons_of_mem _ he)]

theorem read_of_perm_path {arguments : List String} (hspells : Spells arguments given)
    {payload path : String} (h : given.Perm [(.payload, payload), (.request, path)])
    (hpath : path ≠ "") :
    Invocation.read arguments = .run ⟨payload, some path, none, [], none⟩ := by
  have hnone : (valuesOf .mapping given).Perm [] := h.filterMap _
  refine (read_eq_run_iff hspells).mpr (Draft.gains_of_perm h (fun f _ => ?_) ?_ ?_)
  · cases f <;> rfl
  · simp [IsReadable, hpath]
  · rw [List.perm_nil.mp hnone]
    rfl

theorem valuesOf_options (f : Field) (file : RequestFile) :
    valuesOf f file.options =
      match f with
      | .mapping => file.mapping.map entryText
      | .condition => [file.condition]
      | .provider => file.provider.toList
      | _ => [] := by
  unfold RequestFile.options
  cases f <;> simp [valuesOf_append, valuesOf_map, valuesOf_cons, -List.map_map]

/-- Options that say what a file says are read in any order, and the mappings among them are those
of the file. -/
theorem read_of_perm_options {arguments : List String} (hspells : Spells arguments given)
    {payload : String} {file : RequestFile} (hfile : IsTidy file.mapping)
    (h : given.Perm ((.payload, payload) :: file.options)) :
    ∃ mappings, mappings.Perm file.mapping ∧ Invocation.read arguments =
      .run ⟨payload, none, file.provider, mappings, some file.condition⟩ := by
  have hvalues (f : Field) : valuesOf f ((.payload, payload) :: file.options) =
      if f = .payload then [payload] else valuesOf f file.options := by
    rw [valuesOf_cons]
    cases f <;> simp [valuesOf_options]
  have hmappings : ((valuesOf .mapping given).filterMap readMapping?).Perm file.mapping := by
    have hperm : (valuesOf .mapping given).Perm
        (valuesOf .mapping ((.payload, payload) :: file.options)) := h.filterMap _
    have hread := hperm.filterMap readMapping?
    rwa [hvalues, if_neg nofun, valuesOf_options, filterMap_entryText hfile] at hread
  refine ⟨_, hmappings,
    (read_eq_run_iff hspells).mpr (Draft.gains_of_perm h (fun f hf => ?_) (fun e he => ?_) rfl)⟩
  · rw [hvalues]
    cases f <;> simp [valuesOf_options, Draft.single?, Options.draft] at hf ⊢
  · obtain ⟨f, text⟩ := e
    rw [← mem_valuesOf_iff, hvalues, valuesOf_options] at he
    constructor
    · rintro ⟨⟩
      cases he
    · rintro rfl
      obtain ⟨e, hmem, rfl⟩ := List.mem_map.mp he
      rw [readMapping?_entryText hfile hmem]
      rfl

theorem ne_empty_of_load {file? : String → Option String} {path : String} {file : RequestFile}
    (h : RequestFile.load file? path = .ok file) : path ≠ "" := by
  rintro rfl
  have hnone : RequestFile.open? file? "" = none := by
    have hall : ∀ name ∈ candidates "", extension? name = none := by decide +kernel
    unfold RequestFile.open?
    cases hfind : (candidates "").findSome? fun name => (file? name).map (name, ·) with
    | none => rfl
    | some found =>
      obtain ⟨name, hmem, hfile⟩ := List.exists_of_findSome?_eq_some hfind
      obtain ⟨text, -, rfl⟩ := Option.map_eq_some_iff.mp hfile
      dsimp only [Option.bind_eq_bind, Option.bind_some]
      rw [hall name hmem]
      rfl
  rw [RequestFile.load, hnone] at h
  cases h

/-- Mappings in another order make the same request, since they are kept in the order of their
keys. -/
theorem combine_eq_of_perm {file : RequestFile} (hfile : KeyMap.Ordered file.mapping)
    {mappings : List (String × String)} (h : mappings.Perm file.mapping)
    (path payload text : String) :
    RequestFile.empty.combine
        ⟨payload, none, file.provider, mappings, some file.condition⟩ none text =
      file.combine ⟨payload, some path, none, [], none⟩ none text := by
  have hmapping : KeyMap.insertAll [] mappings = file.mapping := KeyMap.ofList_of_perm hfile h
  rw [RequestFile.combine, RequestFile.combine, RequestFile.empty, hmapping]
  cases file.provider <;> rfl

/-- A file that is laid under no options is the same as its options without a file. -/
theorem run_eq_of_perm {s : Surroundings} (hambient : s.provider = none) {path : String}
    {file : RequestFile} (hload : RequestFile.load s.file? path = .ok file)
    (htidy : IsTidy file.mapping) {payload : String} {arguments arguments' : List String}
    {given given' : List (Field × String)} (hspells : Spells arguments given)
    (hgiven : given.Perm [(.payload, payload), (.request, path)])
    (hspells' : Spells arguments' given')
    (hgiven' : given'.Perm ((.payload, payload) :: file.options)) :
    run s arguments = run s arguments' := by
  have hread := read_of_perm_path hspells hgiven (ne_empty_of_load hload)
  obtain ⟨mappings, hmappings, hread'⟩ := read_of_perm_options hspells' htidy hgiven'
  have hordered := RequestFile.ordered_of_load hload
  have hrequest : s.request ⟨payload, some path, none, [], none⟩ =
      s.request ⟨payload, none, file.provider, mappings, some file.condition⟩ := by
    unfold Surroundings.request
    dsimp only
    cases s.payload? payload with
    | none => rfl
    | some text =>
      dsimp only
      rw [hload, hambient, combine_eq_of_perm hordered hmappings path payload text]
      rfl
  rw [run, run, hread, hread']
  dsimp only
  rw [execute, execute, hrequest]

/-- The last option for a key and the options for the condition and the provider override what the
surroundings and the request file say, and a file gives the same outcome as its options do. -/
theorem combines_and_run_eq (s : Surroundings) :
    (∀ arguments o, Invocation.read arguments = .run o →
      (∃ given, Spells arguments given) ∧
      (∀ given file payload, Spells arguments given → KeyMap.Ordered file.mapping →
        Combines given s.provider file (file.combine o s.provider payload)) ∧
      ∀ r, s.request o = .ok r ↔ ∃ payload file, s.payload? o.payload = some payload ∧
        Supplies s o file ∧ r = file.combine o s.provider payload) ∧
      ∀ path file, s.provider = none → RequestFile.load s.file? path = .ok file →
        IsTidy file.mapping → ∀ payload arguments arguments' given given',
          Spells arguments given → given.Perm [(.payload, payload), (.request, path)] →
          Spells arguments' given' → given'.Perm ((.payload, payload) :: file.options) →
          run s arguments = run s arguments' := by
  constructor
  · intro arguments o hread
    refine ⟨exists_spells_of_read hread, fun given file payload hspells hfile => ?_,
      fun r => Surroundings.request_eq_ok_iff⟩
    exact combines_of_gains ((read_eq_run_iff hspells).mp hread) hfile s.provider payload
  · intro path file hambient hload htidy payload arguments arguments' given given' hspells hgiven
      hspells' hgiven'
    exact run_eq_of_perm hambient hload htidy hspells hgiven hspells' hgiven'

def subjectFileText : String :=
  "\x7b\"attribute_mapping\":\x7b\"google.subject\":\"assertion.sub\"," ++
    "\"attribute.a\":\"'='\"\x7d\x7d"

/-- One request file, for claims on the standard input. -/
def withFile : Surroundings where
  input := "\x7b\"sub\":\"ann\"\x7d"
  file? path := if path = "r.json" then some subjectFileText else none
  provider := none

def subjectFile : RequestFile :=
  ⟨none, [("attribute.a", "'='"), ("google.subject", "assertion.sub")], ""⟩

/-- What the file says, each option spelled in another way. -/
def subjectArguments : List String :=
  ["-c=", "-mgoogle.subject=assertion.sub", "--payload=-", "--mapping", "attribute.a='='", "--"]

theorem run_withFile :
    RequestFile.load withFile.file? "r.json" = .ok subjectFile ∧ IsTidy subjectFile.mapping ∧
      (run withFile ["-p", "-", "-rr.json"]).exit = 0 ∧
      run withFile ["-p", "-", "-rr.json"] = run withFile subjectArguments ∧
      Combines [(.payload, "-"), (.request, "r.json")] none subjectFile
        ⟨withFile.input, some subjectFile.mapping, "", none⟩ := by
  have hload : RequestFile.load withFile.file? "r.json" = .ok subjectFile :=
    Journal.eq_ok_of_toOption (by decide +kernel)
  have htidy : IsTidy subjectFile.mapping := by
    unfold IsTidy
    decide +kernel
  have hspells : Spells ["-p", "-", "-rr.json"] [(.payload, "-"), (.request, "r.json")] :=
    .apart (.letter rfl rfl) (.inl rfl)
      (.attached (.letterValue rfl rfl (by decide) (by simp)) .nil)
  have hspells' : Spells subjectArguments [(.condition, ""),
      (.mapping, "google.subject=assertion.sub"), (.payload, "-"), (.mapping, "attribute.a='='")] :=
    .attached (.letterEquals rfl rfl) (.attached (.letterValue rfl rfl (by decide) (by simp))
      (.attached (.nameValue rfl) (.apart (.name rfl) (.inr (by simp)) .separator)))
  have hread : Invocation.read ["-p", "-", "-rr.json"] =
      .run ⟨"-", some "r.json", none, [], none⟩ := by decide +kernel
  have hexit : (run withFile ["-p", "-", "-rr.json"]).exit = 0 := by decide +kernel
  have hordered : KeyMap.Ordered subjectFile.mapping := RequestFile.ordered_of_load hload
  obtain ⟨hcombines, hroutes⟩ := combines_and_run_eq withFile
  obtain ⟨-, hcombine, -⟩ := hcombines _ _ hread
  have hsame : run withFile ["-p", "-", "-rr.json"] = run withFile subjectArguments :=
    hroutes "r.json" subjectFile rfl hload htidy "-" _ _ _ _ hspells (List.Perm.refl _) hspells'
      (by decide)
  exact ⟨hload, htidy, hexit, hsame, hcombine _ subjectFile withFile.input hspells hordered⟩

end ClaimMapping.CommandLine
