import ClaimMapping.CommandLine.Run
import ClaimMapping.Proofs.Journal.Outcome
import ClaimMapping.Proofs.KeyMap.Lookup

namespace ClaimMapping.CommandLine

namespace Document

/-- Tables inside tables are in the order of a map. What stands in a list may be in any order. -/
inductive IsSorted : Document → Prop where
  | table {entries : KeyMap Document} (ordered : KeyMap.Ordered entries)
      (sorted : ∀ e ∈ entries, IsSorted e.2) : IsSorted (.table entries)
  | other {d : Document} (h : d.entries? = none) : IsSorted d

theorem isSorted_empty : IsSorted (.table []) := .table KeyMap.ordered_nil nofun

theorem IsSorted.of_entries? {d : Document} (h : d.IsSorted) {entries : KeyMap Document}
    (he : d.entries? = some entries) :
    KeyMap.Ordered entries ∧ ∀ e ∈ entries, e.2.IsSorted := by
  cases h with
  | table ordered sorted =>
    cases he
    exact ⟨ordered, sorted⟩
  | other hnone =>
    rw [hnone] at he
    cases he

theorem IsSorted.asTable {d : Document} (h : d.IsSorted) : IsSorted (.table d.asTable) := by
  unfold Document.asTable
  cases he : d.entries? with
  | none => exact isSorted_empty
  | some entries =>
    obtain ⟨ordered, sorted⟩ := h.of_entries? he
    exact .table ordered sorted

theorem IsSorted.insert {root : KeyMap Document} (h : IsSorted (.table root)) (name : String)
    {d : Document} (hd : d.IsSorted) : IsSorted (.table (KeyMap.insert root name d)) := by
  obtain ⟨ordered, sorted⟩ := h.of_entries? rfl
  refine .table (ordered.insert name d) fun e he => ?_
  obtain rfl | hmem := KeyMap.mem_of_mem_insert he
  · exact hd
  · exact sorted e hmem

theorem IsSorted.get? {root : KeyMap Document} (h : IsSorted (.table root)) {name : String}
    {default : Document} (hdefault : default.IsSorted) :
    ((KeyMap.get? root name).getD default).IsSorted := by
  obtain ⟨-, sorted⟩ := h.of_entries? rfl
  cases hget : KeyMap.get? root name with
  | none => exact hdefault
  | some d => exact sorted (name, d) (KeyMap.mem_of_get? hget)

mutual

/-- What is set need not be in order: its entries are set one by one. -/
theorem isSorted_setName {root : KeyMap Document} (h : IsSorted (.table root)) (name : String)
    (d : Document) : IsSorted (.table (setName root name d)) := by
  cases d with
  | table entries =>
    have hmerged : (mergeAll ((KeyMap.get? root name).getD (.table [])) entries).IsSorted :=
      isSorted_mergeAll (h.get? isSorted_empty) entries
    rw [setName]
    exact h.insert name hmerged
  | null => exact h.insert name (.other rfl)
  | bool b => exact h.insert name (.other rfl)
  | integer n => exact h.insert name (.other rfl)
  | real x => exact h.insert name (.other rfl)
  | text s => exact h.insert name (.other rfl)
  | list items => exact h.insert name (.other rfl)

theorem isSorted_mergeAll {target : Document} (h : target.IsSorted)
    (entries : List (String × Document)) : (mergeAll target entries).IsSorted := by
  match entries with
  | [] => exact h
  | (name, d) :: entries =>
    have hset : IsSorted (.table (setName target.asTable name d)) :=
      isSorted_setName h.asTable name d
    rw [mergeAll]
    exact isSorted_mergeAll hset entries

end

theorem isSorted_put? {d target d' : Document} {path : List Step} (hpath : path ≠ [])
    (htarget : target.IsSorted) (h : put? d path target = some d') : d'.IsSorted := by
  -- Where a path ends in a list, `d` is put there as it is, but then a list stands around it.
  induction path generalizing target d' with
  | nil => exact absurd rfl hpath
  | cons step path ih =>
    cases step with
    | member name =>
      cases path with
      | nil =>
        cases h
        exact isSorted_setName htarget.asTable name d
      | cons next path =>
        obtain ⟨inner, hinner, h⟩ := Option.bind_eq_some_iff.mp h
        cases h
        have hsorted : inner.IsSorted :=
          ih (List.cons_ne_nil next path) (htarget.asTable.get? (.other rfl)) hinner
        exact htarget.asTable.insert name hsorted
    | item index =>
      obtain ⟨i, -, h⟩ := Option.bind_eq_some_iff.mp h
      obtain ⟨inner, -, h⟩ := Option.bind_eq_some_iff.mp h
      cases h
      exact .other rfl

theorem ofKey_ne_nil (key : String) : Step.ofKey key ≠ [] := by
  unfold Step.ofKey
  cases hname : Step.takeName? key.toList with
  | none => exact List.cons_ne_nil _ _
  | some found =>
    cases hmore : Step.takeMore? found.2.length found.2 with
    | none => simp [hmore]
    | some steps => simp [hmore]

theorem isSorted_foldlM_put? {entries : List (String × Document)} {root d : Document}
    (hroot : root.IsSorted)
    (h : entries.foldlM (fun root e => put? e.2 (Step.ofKey e.1) root) root = some d) :
    d.IsSorted := by
  induction entries generalizing root with
  | nil =>
    cases h
    exact hroot
  | cons e entries ih =>
    obtain ⟨next, hnext, h⟩ := Option.bind_eq_some_iff.mp h
    exact ih (isSorted_put? (ofKey_ne_nil e.1) hroot hnext) h

/-- The fields of a document are in order at every level, since each of them was set one after the
other. -/
theorem isSorted_fields? {d : Document} {fields : KeyMap Document} (h : d.fields? = some fields) :
    IsSorted (.table fields) := by
  obtain ⟨root, hroot, rfl⟩ := Option.map_eq_some_iff.mp h
  exact (isSorted_foldlM_put? isSorted_empty hroot).asTable

end Document

namespace RequestFile

open Document (IsSorted)

theorem keys_of_mapM {entries : KeyMap Document} {mapping : KeyMap String}
    (h : entries.mapM (fun e => e.2.scalarText?.map fun s => (e.1, s)) = some mapping) :
    KeyMap.keys mapping = KeyMap.keys entries := by
  induction entries generalizing mapping with
  | nil =>
    cases h
    rfl
  | cons e entries ih =>
    rw [List.mapM_cons] at h
    obtain ⟨e', he, h⟩ := Option.bind_eq_some_iff.mp h
    obtain ⟨rest, hrest, h⟩ := Option.bind_eq_some_iff.mp h
    obtain ⟨s, -, rfl⟩ := Option.map_eq_some_iff.mp he
    cases h
    rw [KeyMap.keys_cons, KeyMap.keys_cons, ih hrest]

theorem ordered_mappingOf? {d : Document} (hd : d.IsSorted) {mapping : KeyMap String}
    (h : mappingOf? d = some mapping) : KeyMap.Ordered mapping := by
  obtain ⟨entries, hentries, h⟩ := Option.bind_eq_some_iff.mp h
  obtain ⟨ordered, -⟩ := hd.of_entries? hentries
  rw [KeyMap.Ordered, keys_of_mapM h]
  exact ordered

/-- The three fields one after the other. -/
theorem ofFields?_eq (fields : KeyMap Document) :
    ofFields? fields =
      ((match KeyMap.get? fields "provider" with
        | none => some none
        | some .null => some none
        | some d => d.scalarText?.map some) >>= fun provider =>
      (match KeyMap.get? fields "attribute_mapping" with
        | none => some []
        | some d => mappingOf? d) >>= fun mapping =>
      (match KeyMap.get? fields "attribute_condition" with
        | none => some ""
        | some d => d.scalarText?) >>= fun condition =>
      some ⟨provider, mapping, condition⟩) := by
  unfold ofFields?
  cases KeyMap.get? fields "provider" with
  | none =>
    cases KeyMap.get? fields "attribute_mapping" <;>
      cases KeyMap.get? fields "attribute_condition" <;> rfl
  | some d =>
    cases KeyMap.get? fields "attribute_mapping" <;>
      cases KeyMap.get? fields "attribute_condition" <;> cases d <;> rfl

theorem ordered_ofFields? {fields : KeyMap Document} (hfields : IsSorted (.table fields))
    {file : RequestFile} (h : ofFields? fields = some file) : KeyMap.Ordered file.mapping := by
  rw [ofFields?_eq] at h
  obtain ⟨provider, -, h⟩ := Option.bind_eq_some_iff.mp h
  obtain ⟨mapping, hmapping, h⟩ := Option.bind_eq_some_iff.mp h
  obtain ⟨condition, -, h⟩ := Option.bind_eq_some_iff.mp h
  cases h
  cases hget : KeyMap.get? fields "attribute_mapping" with
  | none =>
    rw [hget] at hmapping
    cases hmapping
    exact KeyMap.ordered_nil
  | some d =>
    rw [hget] at hmapping
    have hd : d.IsSorted := by
      obtain ⟨-, sorted⟩ := hfields.of_entries? rfl
      exact sorted ("attribute_mapping", d) (KeyMap.mem_of_get? hget)
    exact ordered_mappingOf? hd hmapping

/-- The mapping of a request file is in the order of a map, whatever the order of the text that it
is read from. -/
theorem ordered_of_load {file? : String → Option String} {path : String} {file : RequestFile}
    (h : load file? path = .ok file) : KeyMap.Ordered file.mapping := by
  unfold load at h
  dsimp only at h
  split at h
  case h_1 => cases h
  case h_2 d hd =>
    split at h
    case h_1 => cases h
    case h_2 fields hfields =>
      split at h
      case h_1 => cases h
      case h_2 file' hfile =>
        cases h
        exact ordered_ofFields? (Document.isSorted_fields? hfields) hfile

end RequestFile

/-- The request file of the options, which is empty when they name none. -/
def Supplies (s : Surroundings) (o : Options) (file : RequestFile) : Prop :=
  match o.request with
  | none => file = .empty
  | some path => RequestFile.load s.file? path = .ok file

theorem Supplies.ordered {s : Surroundings} {o : Options} {file : RequestFile}
    (h : Supplies s o file) : KeyMap.Ordered file.mapping := by
  unfold Supplies at h
  cases hrequest : o.request with
  | none =>
    rw [hrequest] at h
    subst h
    exact KeyMap.ordered_nil
  | some path =>
    rw [hrequest] at h
    exact RequestFile.ordered_of_load h

/-- A request is what the options ask for over the request file, if they name one. -/
theorem Surroundings.request_eq_ok_iff {s : Surroundings} {o : Options} {r : Mapping.Request} :
    s.request o = .ok r ↔ ∃ payload file, s.payload? o.payload = some payload ∧
      Supplies s o file ∧ r = file.combine o s.provider payload := by
  unfold request Supplies
  cases hpayload : s.payload? o.payload with
  | none => simp
  | some payload =>
    cases hrequest : o.request with
    | none => simp [eq_comm]
    | some path =>
      dsimp only
      rw [Journal.map_eq_ok_iff]
      simp [eq_comm]

end ClaimMapping.CommandLine
