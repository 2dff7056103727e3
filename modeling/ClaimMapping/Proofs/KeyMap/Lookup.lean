import ClaimMapping.KeyMap
import Mathlib

namespace ClaimMapping.KeyMap

variable {α β : Type}

@[simp] theorem keys_nil : keys ([] : KeyMap α) = [] := rfl

@[simp] theorem keys_cons (e : String × α) (m : KeyMap α) : keys (e :: m) = e.1 :: keys m := rfl

@[simp] theorem get?_nil (key : String) : get? ([] : KeyMap α) key = none := rfl

theorem get?_cons (k : String) (v : α) (m : KeyMap α) (key : String) :
    get? ((k, v) :: m) key = if key = k then some v else get? m key := rfl

@[simp] theorem get?_cons_self (k : String) (v : α) (m : KeyMap α) :
    get? ((k, v) :: m) k = some v := by
  rw [get?_cons, if_pos rfl]

theorem get?_cons_of_ne {k key : String} (h : key ≠ k) (v : α) (m : KeyMap α) :
    get? ((k, v) :: m) key = get? m key := by
  rw [get?_cons, if_neg h]

theorem mem_of_get? {m : KeyMap α} {key : String} {v : α} (h : get? m key = some v) :
    (key, v) ∈ m := by
  induction m with
  | nil => simp at h
  | cons e m ih =>
    obtain ⟨k, w⟩ := e
    by_cases hk : key = k
    · subst hk
      rw [get?_cons_self, Option.some.injEq] at h
      simp [h]
    · rw [get?_cons_of_ne hk] at h
      exact List.mem_cons_of_mem _ (ih h)

theorem mem_keys_of_mem {m : KeyMap α} {key : String} {v : α} (h : (key, v) ∈ m) :
    key ∈ keys m := List.mem_map.mpr ⟨(key, v), h, rfl⟩

theorem get?_eq_none_iff {m : KeyMap α} {key : String} : get? m key = none ↔ key ∉ keys m := by
  induction m with
  | nil => simp
  | cons e m ih =>
    obtain ⟨k, w⟩ := e
    by_cases hk : key = k
    · simp [hk]
    · rw [get?_cons_of_ne hk, ih]
      simp [hk]

theorem isSome_get?_iff {m : KeyMap α} {key : String} :
    (get? m key).isSome = true ↔ key ∈ keys m := by
  rw [← not_iff_not, Option.not_isSome_iff_eq_none, get?_eq_none_iff]

theorem ordered_nil : Ordered ([] : KeyMap α) := List.Pairwise.nil

theorem ordered_cons {e : String × α} {m : KeyMap α} :
    Ordered (e :: m) ↔ (∀ key ∈ keys m, e.1 < key) ∧ Ordered m := List.pairwise_cons

/-- An ordered map holds each key once. -/
theorem Ordered.nodup {m : KeyMap α} (h : Ordered m) : (keys m).Nodup :=
  List.Pairwise.imp ne_of_lt h

/-- The entries of an ordered map are its look-ups. -/
theorem Ordered.get?_eq_some_iff {m : KeyMap α} (h : Ordered m) {key : String} {v : α} :
    get? m key = some v ↔ (key, v) ∈ m := by
  refine ⟨mem_of_get?, fun hm => ?_⟩
  induction m with
  | nil => simp at hm
  | cons e m ih =>
    obtain ⟨k, w⟩ := e
    obtain ⟨hlt, hm'⟩ := ordered_cons.mp h
    rcases List.mem_cons.mp hm with he | hm
    · cases he
      exact get?_cons_self _ _ _
    · have hk : key ≠ k := (hlt key (mem_keys_of_mem hm)).ne'
      rw [get?_cons_of_ne hk]
      exact ih hm' hm

theorem Ordered.eq_of_mem {m : KeyMap α} (h : Ordered m) {key : String} {v w : α}
    (hv : (key, v) ∈ m) (hw : (key, w) ∈ m) : v = w := by
  rw [← h.get?_eq_some_iff] at hv hw
  exact Option.some.inj (hv.symm.trans hw)

/-- In a list ordered by keys, what has a lesser key stands before. -/
theorem mem_before_of_lt {f : α → String} {before after : List α} {x y : α}
    (h : ((before ++ x :: after).map f).Pairwise (· < ·)) (hy : y ∈ before ++ x :: after)
    (hlt : f y < f x) : y ∈ before := by
  rw [List.map_append, List.pairwise_append] at h
  obtain ⟨hafter, -⟩ := List.pairwise_cons.mp h.2.1
  rcases List.mem_append.mp hy with hy | hy
  · exact hy
  rcases List.mem_cons.mp hy with rfl | hy
  · exact absurd hlt (lt_irrefl _)
  · exact absurd hlt (hafter (f y) (List.mem_map_of_mem hy)).asymm

/-- Two ordered maps with the same entries are equal. -/
theorem Ordered.eq_of_perm {m n : KeyMap α} (hm : Ordered m) (hn : Ordered n) (h : m.Perm n) :
    m = n := by
  have om : m.Pairwise fun a b => a.1 < b.1 := List.pairwise_map.mp hm
  have on : n.Pairwise fun a b => a.1 < b.1 := List.pairwise_map.mp hn
  exact h.eq_of_pairwise (fun a b _ _ hab hba => absurd hab hba.asymm) om on

/-- Two ordered maps that answer every look-up alike are equal. -/
theorem Ordered.ext {m n : KeyMap α} (hm : Ordered m) (hn : Ordered n)
    (h : ∀ key, get? m key = get? n key) : m = n := by
  refine hm.eq_of_perm hn ?_
  apply (List.perm_ext_iff_of_nodup hm.nodup.of_map hn.nodup.of_map).mpr
  intro e
  obtain ⟨key, v⟩ := e
  rw [← hm.get?_eq_some_iff, ← hn.get?_eq_some_iff, h]

theorem get?_insert (m : KeyMap α) (k : String) (v : α) (key : String) :
    get? (insert m k v) key = if key = k then some v else get? m key := by
  induction m with
  | nil => rfl
  | cons e m ih =>
    obtain ⟨k', w⟩ := e
    unfold insert
    by_cases hlt : k < k'
    · rw [if_pos hlt, get?_cons]
    rw [if_neg hlt]
    by_cases hk : k = k'
    · subst hk
      rw [if_pos rfl, get?_cons, get?_cons]
      by_cases h : key = k <;> simp [h]
    · rw [if_neg hk, get?_cons, get?_cons, ih]
      by_cases h : key = k
      · subst h
        simp [hk]
      · simp [h]

theorem mem_keys_insert {m : KeyMap α} {k : String} {v : α} {key : String} :
    key ∈ keys (insert m k v) ↔ key = k ∨ key ∈ keys m := by
  rw [← not_iff_not, ← get?_eq_none_iff, get?_insert, not_or, ← get?_eq_none_iff]
  by_cases h : key = k <;> simp [h]

theorem insert_perm {m : KeyMap α} {k : String} (h : k ∉ keys m) (v : α) :
    (insert m k v).Perm ((k, v) :: m) := by
  induction m with
  | nil => exact List.Perm.refl _
  | cons e m ih =>
    obtain ⟨k', w⟩ := e
    rw [keys_cons, List.mem_cons, not_or] at h
    obtain ⟨hne, hk⟩ := h
    unfold insert
    rw [if_neg hne]
    split_ifs
    · exact List.Perm.refl _
    · exact ((ih hk).cons (k', w)).trans (List.Perm.swap ..)

theorem Ordered.insert {m : KeyMap α} (h : Ordered m) (k : String) (v : α) :
    Ordered (insert m k v) := by
  induction m with
  | nil => exact ordered_cons.mpr ⟨by simp, ordered_nil⟩
  | cons e m ih =>
    obtain ⟨k', w⟩ := e
    obtain ⟨hlt, hm⟩ := ordered_cons.mp h
    unfold KeyMap.insert
    split_ifs with hk heq
    · refine ordered_cons.mpr ⟨fun key hkey => ?_, h⟩
      rcases List.mem_cons.mp hkey with rfl | hkey
      · exact hk
      · exact hk.trans (hlt key hkey)
    · exact ordered_cons.mpr ⟨by simpa [heq] using hlt, hm⟩
    · refine ordered_cons.mpr ⟨fun key hkey => ?_, ih hm⟩
      rcases mem_keys_insert.mp hkey with rfl | hkey
      · exact lt_of_le_of_ne (not_lt.mp hk) (Ne.symm heq)
      · exact hlt key hkey

theorem Ordered.insertAll {m : KeyMap α} (h : Ordered m) (entries : List (String × α)) :
    Ordered (insertAll m entries) := by
  induction entries generalizing m with
  | nil => exact h
  | cons e entries ih => exact ih (h.insert e.1 e.2)

theorem mem_of_mem_insert {m : KeyMap α} {k : String} {v : α} {e : String × α}
    (h : e ∈ insert m k v) : e = (k, v) ∨ e ∈ m := by
  induction m with
  | nil => exact .inl (List.mem_singleton.mp h)
  | cons e' m ih =>
    obtain ⟨k', w⟩ := e'
    unfold insert at h
    split_ifs at h
    · exact List.mem_cons.mp h
    · exact (List.mem_cons.mp h).imp_right (List.mem_cons_of_mem _)
    · obtain rfl | h := List.mem_cons.mp h
      · exact .inr List.mem_cons_self
      · exact (ih h).imp_right (List.mem_cons_of_mem _)

theorem mem_of_mem_insertAll {m : KeyMap α} {entries : List (String × α)} {e : String × α}
    (h : e ∈ insertAll m entries) : e ∈ entries ∨ e ∈ m := by
  induction entries generalizing m with
  | nil => exact .inr h
  | cons e' entries ih =>
    obtain h | h := ih h
    · exact .inl (List.mem_cons_of_mem _ h)
    · obtain rfl | h := mem_of_mem_insert h
      · exact .inl List.mem_cons_self
      · exact .inr h

theorem mem_of_mem_ofList {entries : List (String × α)} {e : String × α}
    (h : e ∈ ofList entries) : e ∈ entries :=
  (mem_of_mem_insertAll h).resolve_right List.not_mem_nil

theorem ordered_ofList (entries : List (String × α)) : Ordered (ofList entries) :=
  ordered_nil.insertAll entries

theorem insertAll_append (m : KeyMap α) (entries more : List (String × α)) :
    insertAll m (entries ++ more) = insertAll (insertAll m entries) more := List.foldl_append

/-- The inserted entries are found first. -/
theorem get?_insertAll (m : KeyMap α) {entries : KeyMap α} (h : (keys entries).Nodup)
    (key : String) :
    get? (insertAll m entries) key = (get? entries key).or (get? m key) := by
  induction entries generalizing m with
  | nil => rfl
  | cons e entries ih =>
    obtain ⟨k, v⟩ := e
    obtain ⟨hnot, hrest⟩ := List.nodup_cons.mp h
    have step : get? (insertAll m ((k, v) :: entries)) key =
        (get? entries key).or (get? (insert m k v) key) := ih (insert m k v) hrest
    rw [step, get?_insert, get?_cons]
    by_cases hk : key = k
    · have hn : get? entries key = none := by
        rw [hk]
        exact get?_eq_none_iff.mpr hnot
      rw [if_pos hk, if_pos hk, hn]
      rfl
    · rw [if_neg hk, if_neg hk]

theorem get?_insertAll_of_forall_ne {entries : List (String × α)} {key : String}
    (h : ∀ e ∈ entries, e.1 ≠ key) (m : KeyMap α) :
    get? (insertAll m entries) key = get? m key := by
  induction entries generalizing m with
  | nil => rfl
  | cons e entries ih =>
    obtain ⟨hne, hrest⟩ := List.forall_mem_cons.mp h
    have step : get? (insertAll m (e :: entries)) key = get? (insert m e.1 e.2) key :=
      ih hrest (insert m e.1 e.2)
    rw [step, get?_insert, if_neg hne.symm]

/-- Of several entries with a key the last one counts. -/
theorem get?_insertAll_last (m : KeyMap α) (before : List (String × α)) {after : List (String × α)}
    {key : String} (v : α) (h : ∀ e ∈ after, e.1 ≠ key) :
    get? (insertAll m (before ++ (key, v) :: after)) key = some v := by
  have step : insertAll m (before ++ (key, v) :: after) =
      insertAll (insert (insertAll m before) key v) after := insertAll_append m before _
  rw [step, get?_insertAll_of_forall_ne h, get?_insert, if_pos rfl]

/-- Entries of new, distinct keys are just added. -/
theorem insertAll_perm {m entries : KeyMap α} (h : (keys (m ++ entries)).Nodup) :
    (insertAll m entries).Perm (m ++ entries) := by
  induction entries generalizing m with
  | nil => rw [List.append_nil, insertAll, List.foldl_nil]
  | cons e entries ih =>
    have hmiddle : (m ++ e :: entries).Perm (e :: m ++ entries) := List.perm_middle
    have hnodup : (keys (e :: m ++ entries)).Nodup := (hmiddle.map Prod.fst).nodup_iff.mp h
    have hnot : e.1 ∉ keys m := by
      intro hmem
      have hpart : (keys m).Sublist (keys (m ++ entries)) :=
        (List.sublist_append_left m entries).map Prod.fst
      exact (List.nodup_cons.mp hnodup).1 (hpart.subset hmem)
    have hinsert : (insert m e.1 e.2 ++ entries).Perm (e :: m ++ entries) :=
      (insert_perm hnot e.2).append_right entries
    have step : (insertAll (insert m e.1 e.2) entries).Perm (insert m e.1 e.2 ++ entries) :=
      ih ((hinsert.map Prod.fst).nodup_iff.mpr hnodup)
    exact step.trans (hinsert.trans hmiddle.symm)

/-- The entries of an ordered map give it back in any order. -/
theorem ofList_of_perm {entries m : KeyMap α} (hm : Ordered m) (h : entries.Perm m) :
    ofList entries = m := by
  have hnodup : (keys ([] ++ entries)).Nodup := (h.map Prod.fst).nodup_iff.mpr hm.nodup
  exact (ordered_ofList entries).eq_of_perm hm ((insertAll_perm hnodup).trans h)

/-- A key behind all others goes to the end. -/
theorem insert_of_forall_lt {m : KeyMap α} {k : String} (h : ∀ key ∈ keys m, key < k) (v : α) :
    insert m k v = m ++ [(k, v)] := by
  induction m with
  | nil => rfl
  | cons e m ih =>
    obtain ⟨k', w⟩ := e
    have hk : k' < k := h k' (by simp)
    unfold insert
    rw [if_neg hk.asymm, if_neg hk.ne', ih fun key hkey => h key (by simp [hkey])]
    rfl

theorem get?_concat {m : KeyMap α} {k : String} (h : ∀ key ∈ keys m, key < k) (v : α)
    (key : String) : get? (m ++ [(k, v)]) key = if key = k then some v else get? m key := by
  rw [← insert_of_forall_lt h, get?_insert]

/-- An ordered list of entries is the map that it makes. -/
theorem ofList_of_ordered {m : KeyMap α} (h : Ordered m) : ofList m = m :=
  ofList_of_perm h (List.Perm.refl m)

@[simp] theorem keys_mapValues (f : α → β) (m : KeyMap α) : keys (mapValues f m) = keys m := by
  simp [keys, mapValues, Function.comp_def]

theorem Ordered.mapValues {m : KeyMap α} (h : Ordered m) (f : α → β) :
    Ordered (mapValues f m) := by
  rw [Ordered, keys_mapValues]
  exact h

theorem get?_mapValues (f : α → β) (m : KeyMap α) (key : String) :
    get? (mapValues f m) key = (get? m key).map f := by
  induction m with
  | nil => rfl
  | cons e m ih =>
    rw [mapValues, List.map_cons, get?_cons, get?_cons]
    by_cases h : key = e.1
    · simp [h]
    · rw [if_neg h, if_neg h]
      exact ih

theorem filterKeys_sublist (p : String → Bool) (m : KeyMap α) : (filterKeys p m).Sublist m :=
  List.filter_sublist

theorem Ordered.filterKeys {m : KeyMap α} (h : Ordered m) (p : String → Bool) :
    Ordered (filterKeys p m) :=
  List.Pairwise.sublist ((filterKeys_sublist p m).map Prod.fst) h

theorem get?_filterKeys (p : String → Bool) (m : KeyMap α) (key : String) :
    get? (filterKeys p m) key = if p key then get? m key else none := by
  induction m with
  | nil => simp [filterKeys]
  | cons e m ih =>
    obtain ⟨k, v⟩ := e
    rw [filterKeys] at ih ⊢
    by_cases hk : p k
    · rw [List.filter_cons_of_pos (by exact hk), get?_cons, get?_cons, ih]
      by_cases h : key = k
      · rw [h, if_pos rfl, if_pos rfl, if_pos hk]
      · rw [if_neg h, if_neg h]
    · rw [List.filter_cons_of_neg (by exact hk), ih]
      by_cases h : key = k
      · rw [h, if_neg hk, if_neg hk]
      · rw [get?_cons_of_ne h]

/-- Every entry of the first map is one of the second. -/
def IsPartOf (n m : KeyMap α) : Prop := ∀ key v, get? n key = some v → get? m key = some v

/-- A part of a map is what is left of it at the keys of the part. -/
theorem IsPartOf.eq_filterKeys {n m : KeyMap α} (h : IsPartOf n m) (hn : Ordered n)
    (hm : Ordered m) : n = filterKeys (contains n) m := by
  refine hn.ext (hm.filterKeys _) fun key => ?_
  rw [get?_filterKeys, contains]
  cases hk : get? n key with
  | none => rfl
  | some v => exact (h key v hk).symm

end ClaimMapping.KeyMap
