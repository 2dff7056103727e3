import ClaimMapping.Expression.Library
import ClaimMapping.Proofs.KeyMap.Lookup
import ClaimMapping.Proofs.Provider.Registration
import ClaimMapping.Proofs.Text.Utf8

namespace ClaimMapping

/-- A kind of catalog: the call that adds to it, and the two ways to look at it. -/
structure Catalog (σ κ ν : Type) where
  noun : String
  empty : σ
  register : σ → κ → Except Duplicate σ
  names : σ → List String
  find? : σ → String → Option ν
  name : κ → String
  value : κ → ν

namespace Catalog

section

variable {σ κ ν : Type} (c : Catalog σ κ ν)

/-- What is there after a call; a call that is refused changes nothing. -/
def afterCall (s : σ) (k : κ) : σ :=
  match c.register s k with
  | .ok s' => s'
  | .error _ => s

/-- What calls, one after the other, make of an empty catalog. -/
def after (calls : List κ) : σ := calls.foldl c.afterCall c.empty

def acceptedFrom : σ → List κ → List κ
  | _, [] => []
  | s, k :: calls =>
    match c.register s k with
    | .ok s' => k :: acceptedFrom s' calls
    | .error _ => acceptedFrom s calls

/-- The calls that are not refused, in their order. -/
def accepted (calls : List κ) : List κ := c.acceptedFrom c.empty calls

/-- What one call does, whatever the catalog holds. -/
structure Lawful : Prop where
  names_empty : c.names c.empty = []
  isSome_find?_iff : ∀ s x, (c.find? s x).isSome = true ↔ x ∈ c.names s
  refuses : ∀ s k, c.name k ∈ c.names s → c.register s k = .error ⟨c.noun, c.name k⟩
  accepts : ∀ s k, c.name k ∉ c.names s → ∃ s', c.register s k = .ok s' ∧
    (c.names s').Perm (c.name k :: c.names s) ∧
    ∀ x, c.find? s' x = if x = c.name k then some (c.value k) else c.find? s x

/-- What a catalog holds after some calls, and what each of the calls came to. -/
structure Records (calls : List κ) : Prop where
  nodup_names : (c.names (c.after calls)).Nodup
  names_perm : (c.names (c.after calls)).Perm ((c.accepted calls).map c.name)
  mem_names_iff : ∀ x, x ∈ c.names (c.after calls) ↔ x ∈ calls.map c.name
  refused_iff : ∀ before k later, calls = before ++ k :: later →
    (c.register (c.after before) k = .error ⟨c.noun, c.name k⟩ ↔
      c.name k ∈ c.names (c.after before))
  accepted_iff : ∀ before k later, calls = before ++ k :: later →
    ((∃ s, c.register (c.after before) k = .ok s) ↔ c.name k ∉ c.names (c.after before))
  unchanged : ∀ before k later, calls = before ++ k :: later →
    c.name k ∈ c.names (c.after before) → c.after (before ++ [k]) = c.after before
  isSome_find?_iff : ∀ x, (c.find? (c.after calls) x).isSome = true ↔ x ∈ c.names (c.after calls)
  find?_eq : ∀ x, c.find? (c.after calls) x = (calls.find? fun k => c.name k == x).map c.value

variable {c}

theorem afterCall_of_ok {s s' : σ} {k : κ} (h : c.register s k = .ok s') :
    c.afterCall s k = s' := by
  rw [afterCall, h]

theorem acceptedFrom_of_ok {s s' : σ} {k : κ} (h : c.register s k = .ok s') (calls : List κ) :
    c.acceptedFrom s (k :: calls) = k :: c.acceptedFrom s' calls := by
  rw [acceptedFrom, h]

namespace Lawful

variable (hc : c.Lawful) {s : σ} {k : κ}
include hc

theorem afterCall_of_mem (h : c.name k ∈ c.names s) : c.afterCall s k = s := by
  rw [afterCall, hc.refuses s k h]

theorem acceptedFrom_of_mem (h : c.name k ∈ c.names s) (calls : List κ) :
    c.acceptedFrom s (k :: calls) = c.acceptedFrom s calls := by
  rw [acceptedFrom, hc.refuses s k h]

/-- The names listed in the end are those of the beginning and of the accepted calls. -/
theorem names_foldl_perm (calls : List κ) (s : σ) :
    (c.names (calls.foldl c.afterCall s)).Perm
      (c.names s ++ (c.acceptedFrom s calls).map c.name) := by
  induction calls generalizing s with
  | nil => rw [acceptedFrom, List.map_nil, List.append_nil, List.foldl_nil]
  | cons k calls ih =>
    rw [List.foldl_cons]
    by_cases hk : c.name k ∈ c.names s
    · rw [hc.afterCall_of_mem hk, hc.acceptedFrom_of_mem hk]
      exact ih s
    · obtain ⟨s', hs, hnames, -⟩ := hc.accepts s k hk
      rw [afterCall_of_ok hs, acceptedFrom_of_ok hs, List.map_cons]
      calc c.names (calls.foldl c.afterCall s')
        _ |>.Perm (c.names s' ++ (c.acceptedFrom s' calls).map c.name) := ih s'
        _ |>.Perm (c.name k :: c.names s ++ (c.acceptedFrom s' calls).map c.name) :=
          hnames.append_right _
        _ |>.Perm (c.names s ++ c.name k :: (c.acceptedFrom s' calls).map c.name) :=
          List.perm_middle.symm

theorem nodup_names_foldl (calls : List κ) {s : σ} (h : (c.names s).Nodup) :
    (c.names (calls.foldl c.afterCall s)).Nodup := by
  induction calls generalizing s with
  | nil => exact h
  | cons k calls ih =>
    rw [List.foldl_cons]
    by_cases hk : c.name k ∈ c.names s
    · rw [hc.afterCall_of_mem hk]
      exact ih h
    · obtain ⟨s', hs, hnames, -⟩ := hc.accepts s k hk
      rw [afterCall_of_ok hs]
      exact ih (hnames.nodup_iff.mpr (List.nodup_cons.mpr ⟨hk, h⟩))

/-- What is there stays, and a new name finds what the first call with it brings. -/
theorem find?_foldl (calls : List κ) (s : σ) (x : String) :
    c.find? (calls.foldl c.afterCall s) x =
      (c.find? s x).or ((calls.find? fun k => c.name k == x).map c.value) := by
  induction calls generalizing s with
  | nil => rw [List.foldl_nil, List.find?_nil, Option.map_none, Option.or_none]
  | cons k calls ih =>
    rw [List.foldl_cons]
    by_cases hk : c.name k ∈ c.names s
    · rw [hc.afterCall_of_mem hk, ih]
      by_cases hx : c.name k = x
      · obtain ⟨v, hv⟩ := Option.isSome_iff_exists.mp ((hc.isSome_find?_iff s x).mpr (hx ▸ hk))
        rw [hv, Option.some_or, Option.some_or]
      · rw [List.find?_cons_of_neg (by simpa using hx)]
    · obtain ⟨s', hs, -, hfind⟩ := hc.accepts s k hk
      rw [afterCall_of_ok hs, ih, hfind]
      by_cases hx : c.name k = x
      · have hnone : c.find? s x = none := by
          rw [← Option.not_isSome_iff_eq_none, hc.isSome_find?_iff, ← hx]
          exact hk
        rw [if_pos hx.symm, List.find?_cons_of_pos (by simpa using hx), hnone]
        rfl
      · rw [if_neg (Ne.symm hx), List.find?_cons_of_neg (by simpa using hx)]

theorem register_cases (s : σ) (k : κ) :
    (c.name k ∈ c.names s ∧ c.register s k = .error ⟨c.noun, c.name k⟩) ∨
      (c.name k ∉ c.names s ∧ ∃ s', c.register s k = .ok s') := by
  by_cases hk : c.name k ∈ c.names s
  · exact .inl ⟨hk, hc.refuses s k hk⟩
  · obtain ⟨s', hs, -⟩ := hc.accepts s k hk
    exact .inr ⟨hk, s', hs⟩

/-- A name finds what the first call with that name brought. -/
theorem find?_after (calls : List κ) (x : String) :
    c.find? (c.after calls) x = (calls.find? fun k => c.name k == x).map c.value := by
  have hnone : c.find? c.empty x = none := by
    rw [← Option.not_isSome_iff_eq_none, hc.isSome_find?_iff, hc.names_empty]
    exact List.not_mem_nil
  rw [after, hc.find?_foldl, hnone, Option.none_or]

/-- Whatever calls were made to add to a catalog, refused calls among them, it records those that
were accepted. -/
theorem records (calls : List κ) : c.Records calls where
  nodup_names := hc.nodup_names_foldl calls (by rw [hc.names_empty]; exact List.nodup_nil)
  names_perm := by
    have hperm := hc.names_foldl_perm calls c.empty
    rwa [hc.names_empty, List.nil_append] at hperm
  mem_names_iff x := by
    rw [← hc.isSome_find?_iff, hc.find?_after, Option.isSome_map, List.find?_isSome]
    simp
  refused_iff before k _ _ := by
    obtain ⟨hk, hr⟩ | ⟨hk, s', hr⟩ := hc.register_cases (c.after before) k
    · exact iff_of_true hr hk
    · exact iff_of_false (by rw [hr]; exact nofun) hk
  accepted_iff before k _ _ := by
    obtain ⟨hk, hr⟩ | ⟨hk, s', hr⟩ := hc.register_cases (c.after before) k
    · exact iff_of_false (by rw [hr]; exact nofun) (not_not_intro hk)
    · exact iff_of_true ⟨s', hr⟩ hk
  unchanged before k _ _ hk := by
    rw [after, List.foldl_append]
    exact hc.afterCall_of_mem hk
  isSome_find?_iff := hc.isSome_find?_iff _
  find?_eq := hc.find?_after calls

end Lawful

end

/-- Registries as catalogs, listed in the order of the calls. -/
def providers : Catalog Provider.Registry Provider Provider where
  noun := "provider"
  empty := Provider.Registry.empty
  register := Provider.Registry.register
  names := Provider.Registry.names
  find? := Provider.Registry.find?
  name := Provider.name
  value := id

theorem providers_register {r : Provider.Registry} {p : Provider} (h : p.name ∉ r.names) :
    r.register p = .ok (r ++ [p]) := if_neg (mt Provider.Registry.isSome_find?_iff.mp h)

theorem providers_names_concat (r : Provider.Registry) (p : Provider) :
    Provider.Registry.names (r ++ [p]) = r.names ++ [p.name] := List.map_append

theorem providers_find?_concat {r : Provider.Registry} {p : Provider} (h : p.name ∉ r.names)
    (x : String) :
    Provider.Registry.find? (r ++ [p]) x = if x = p.name then some p else r.find? x := by
  rw [Provider.Registry.find?, List.find?_append]
  by_cases hx : x = p.name
  · have hnone : List.find? (fun q : Provider => q.name == x) r = none := by
      rw [hx]
      exact Option.not_isSome_iff_eq_none.mp (mt Provider.Registry.isSome_find?_iff.mp h)
    rw [if_pos hx, hnone, List.find?_cons_of_pos (by simpa using hx.symm)]
    rfl
  · rw [if_neg hx, List.find?_cons_of_neg (by simpa using Ne.symm hx), List.find?_nil,
      Option.or_none]
    rfl

theorem lawful_providers : providers.Lawful where
  names_empty := rfl
  isSome_find?_iff _ _ := Provider.Registry.isSome_find?_iff
  refuses _ _ h := if_pos (Provider.Registry.isSome_find?_iff.mpr h)
  accepts r p h := by
    refine ⟨r ++ [p], providers_register h, ?_, providers_find?_concat h⟩
    change (Provider.Registry.names (r ++ [p])).Perm (p.name :: r.names)
    rw [providers_names_concat]
    exact List.perm_append_singleton _ _

theorem names_providers_foldl (calls : List Provider) (r : Provider.Registry) :
    providers.names (calls.foldl providers.afterCall r) =
      r.names ++ (providers.acceptedFrom r calls).map Provider.name := by
  induction calls generalizing r with
  | nil => exact (List.append_nil r.names).symm
  | cons p calls ih =>
    rw [List.foldl_cons]
    by_cases h : p.name ∈ r.names
    · rw [lawful_providers.afterCall_of_mem (s := r) (k := p) h,
        lawful_providers.acceptedFrom_of_mem (s := r) (k := p) h]
      exact ih r
    · have hr : providers.register r p = .ok (r ++ [p]) := providers_register h
      rw [afterCall_of_ok hr, acceptedFrom_of_ok hr, ih, providers_names_concat, List.append_assoc]
      rfl

/-- Libraries as catalogs, listed by the bytes of the names. -/
def functions : Catalog Expression.Library Expression.Function
    (List Expression.Value → Except String Expression.Value) where
  noun := "function"
  empty := Expression.Library.empty
  register := Expression.Library.register
  names := Expression.Library.names
  find? := KeyMap.get?
  name := Expression.Function.name
  value := Expression.Function.call

theorem functions_register {l : Expression.Library} {f : Expression.Function}
    (h : f.name ∉ l.names) : l.register f = .ok (KeyMap.insert l f.name f.call) :=
  if_neg (mt KeyMap.isSome_get?_iff.mp h)

theorem lawful_functions : functions.Lawful where
  names_empty := rfl
  isSome_find?_iff _ _ := KeyMap.isSome_get?_iff
  refuses _ _ h := if_pos (KeyMap.isSome_get?_iff.mpr h)
  accepts l f h := ⟨KeyMap.insert l f.name f.call, functions_register h,
    (KeyMap.insert_perm h f.call).map Prod.fst, KeyMap.get?_insert l f.name f.call⟩

/-- The entries that calls bring are in the order of their names, and are those accepted. -/
theorem functions_foldl (calls : List Expression.Function) {l : Expression.Library}
    (h : KeyMap.Ordered l) :
    KeyMap.Ordered (calls.foldl functions.afterCall l) ∧
      (calls.foldl functions.afterCall l).Perm
        (l ++ (functions.acceptedFrom l calls).map fun f => (f.name, f.call)) := by
  induction calls generalizing l with
  | nil => exact ⟨h, List.Perm.of_eq (List.append_nil l).symm⟩
  | cons f calls ih =>
    rw [List.foldl_cons]
    by_cases hf : f.name ∈ l.names
    · rw [lawful_functions.afterCall_of_mem (s := l) (k := f) hf,
        lawful_functions.acceptedFrom_of_mem (s := l) (k := f) hf]
      exact ih h
    · have hr : functions.register l f = .ok (KeyMap.insert l f.name f.call) :=
        functions_register hf
      rw [afterCall_of_ok hr, acceptedFrom_of_ok hr, List.map_cons]
      obtain ⟨hordered, hperm⟩ := ih (h.insert f.name f.call)
      exact ⟨hordered, hperm.trans (((KeyMap.insert_perm hf f.call).append_right _).trans
        List.perm_middle.symm)⟩

theorem ordered_functions (calls : List Expression.Function) :
    KeyMap.Ordered (functions.after calls) := (functions_foldl calls KeyMap.ordered_nil).1

theorem functions_after_perm (calls : List Expression.Function) :
    (functions.after calls).Perm ((functions.accepted calls).map fun f => (f.name, f.call)) :=
  (functions_foldl calls KeyMap.ordered_nil).2

/-- Libraries of the same functions are the same, in whatever order those came. -/
theorem functions_after_eq {calls calls' : List Expression.Function}
    (h : (functions.accepted calls).Perm (functions.accepted calls')) :
    functions.after calls = functions.after calls' :=
  (ordered_functions calls).eq_of_perm (ordered_functions calls') <|
    (functions_after_perm calls).trans <| (h.map _).trans (functions_after_perm calls').symm

theorem bytes_names_functions (calls : List Expression.Function) :
    ((functions.names (functions.after calls)).map Text.Utf8.bytes).Pairwise (· < ·) :=
  (ordered_functions calls).map _ fun _ _ h => Text.Utf8.bytes_strictMono h

theorem names_functions_eq {calls calls' : List Expression.Function}
    (h : ((functions.accepted calls).map Expression.Function.name).Perm
      ((functions.accepted calls').map Expression.Function.name)) :
    functions.names (functions.after calls) = functions.names (functions.after calls') := by
  have hnames : (functions.names (functions.after calls)).Perm
      (functions.names (functions.after calls')) :=
    (lawful_functions.records calls).names_perm.trans
      (h.trans (lawful_functions.records calls').names_perm.symm)
  exact hnames.eq_of_pairwise (fun _ _ _ _ hab hba => absurd hab hba.asymm)
    (ordered_functions calls) (ordered_functions calls')

/-- After any calls both kinds of catalogs hold what the accepted calls brought. Providers are
listed in the order of these calls; functions are listed by their bytes, so the order of the
calls does not show. -/
theorem records_of_calls (ps : List Provider) (fs : List Expression.Function) :
    (providers.Records ps ∧
      providers.names (providers.after ps) = (providers.accepted ps).map Provider.name) ∧
    functions.Records fs ∧
    ((functions.names (functions.after fs)).map Text.Utf8.bytes).Pairwise (· < ·) ∧
    ∀ fs' : List Expression.Function,
      (((functions.accepted fs).map Expression.Function.name).Perm
          ((functions.accepted fs').map Expression.Function.name) →
        functions.names (functions.after fs) = functions.names (functions.after fs')) ∧
      ((functions.accepted fs).Perm (functions.accepted fs') →
        functions.after fs = functions.after fs') :=
  ⟨⟨lawful_providers.records ps, names_providers_foldl ps Provider.Registry.empty⟩,
    lawful_functions.records fs, bytes_names_functions fs,
    fun _ => ⟨names_functions_eq, functions_after_eq⟩⟩

/-- A third call that names what is there is refused, in both kinds. -/
theorem records_of_three_calls :
    providers.register (providers.after [.oidc, .saml]) .oidc = .error ⟨"provider", "oidc"⟩ ∧
      providers.names (providers.after [.oidc, .saml, .oidc]) = ["oidc", "saml"] ∧
      functions.register (functions.after [.join, .extract]) .join =
        .error ⟨"function", "join"⟩ ∧
      functions.names (functions.after [.join, .extract, .join]) =
        functions.names (functions.after [.extract, .extract, .join]) := by
  obtain ⟨⟨hp, hnames⟩, hf, -, horder⟩ :=
    records_of_calls [.oidc, .saml, .oidc] [.join, .extract, .join]
  refine ⟨(hp.refused_iff [.oidc, .saml] .oidc [] rfl).mpr (by decide), hnames.trans (by decide),
    (hf.refused_iff [.join, .extract] .join [] rfl).mpr (by decide),
    (horder [.extract, .extract, .join]).1 ?_⟩
  decide

end Catalog
end ClaimMapping
