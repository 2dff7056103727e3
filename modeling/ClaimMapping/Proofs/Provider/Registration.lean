import ClaimMapping.Provider.Registry
import Mathlib

namespace ClaimMapping.Provider

/-- The payload is in the format of the provider. -/
def Accepts (p : Provider) (payload : String) : Prop := ∃ b, (p.parse payload).outcome = .ok b

theorem not_accepts_iff {p : Provider} {payload : String} :
    ¬ p.Accepts payload ↔ ∃ e, (p.parse payload).outcome = .error e := by
  unfold Accepts
  cases (p.parse payload).outcome <;> simp

namespace Registry

/-- What is registered after a call; a call that is refused changes nothing. -/
def afterCall (r : Registry) (p : Provider) : Registry :=
  match r.register p with
  | .ok r' => r'
  | .error _ => r

/-- The registry that calls to register leave behind, refused calls among them. -/
def afterCalls (r : Registry) (ps : List Provider) : Registry := ps.foldl afterCall r

theorem isSome_find?_iff {r : Registry} {name : String} :
    (r.find? name).isSome = true ↔ name ∈ r.names := by
  simp [find?, names]

theorem afterCall_of_mem {r : Registry} {p : Provider} (h : p.name ∈ r.names) :
    r.afterCall p = r := by
  rw [afterCall, register, if_pos (isSome_find?_iff.mpr h)]

theorem afterCall_of_not_mem {r : Registry} {p : Provider} (h : p.name ∉ r.names) :
    r.afterCall p = r ++ [p] := by
  rw [afterCall, register, if_neg (mt isSome_find?_iff.mp h)]

theorem nodup_names_afterCall {r : Registry} (h : r.names.Nodup) (p : Provider) :
    (r.afterCall p).names.Nodup := by
  by_cases hp : p.name ∈ r.names
  · rw [afterCall_of_mem hp]
    exact h
  · have hnames : (r ++ [p]).names = r.names ++ [p.name] := by simp [names]
    rw [afterCall_of_not_mem hp, hnames]
    exact h.append (List.nodup_singleton p.name) (by simpa using hp)

theorem prefix_afterCall (r : Registry) (p : Provider) : r <+: r.afterCall p := by
  by_cases hp : p.name ∈ r.names
  · rw [afterCall_of_mem hp]
  · rw [afterCall_of_not_mem hp]
    exact List.prefix_append r [p]

theorem nodup_names_empty : empty.names.Nodup := List.nodup_nil

/-- Whatever the calls are, no name is there twice. -/
theorem nodup_names_afterCalls {r : Registry} (h : r.names.Nodup) (ps : List Provider) :
    (r.afterCalls ps).names.Nodup := by
  induction ps generalizing r with
  | nil => exact h
  | cons p ps ih => exact ih (nodup_names_afterCall h p)

/-- What is registered stays in front of what comes later. -/
theorem prefix_afterCalls (r : Registry) (ps : List Provider) : r <+: r.afterCalls ps := by
  induction ps generalizing r with
  | nil => exact List.prefix_refl r
  | cons p ps ih => exact (prefix_afterCall r p).trans (ih (r.afterCall p))

/-- Where names are distinct, a name finds the only provider that bears it. -/
theorem find?_eq_some_iff_mem {r : Registry} (h : r.names.Nodup) {name : String} {p : Provider} :
    r.find? name = some p ↔ p ∈ r ∧ p.name = name := by
  constructor
  · intro hf
    exact ⟨List.mem_of_find?_eq_some hf, by simpa using List.find?_some hf⟩
  · intro hp
    obtain ⟨hp, rfl⟩ := hp
    have hs : (r.find? p.name).isSome = true := isSome_find?_iff.mpr (List.mem_map_of_mem hp)
    obtain ⟨q, hq⟩ := Option.isSome_iff_exists.mp hs
    have hname : q.name = p.name := by simpa using List.find?_some hq
    rw [hq, List.inj_on_of_nodup_map h (List.mem_of_find?_eq_some hq) hp hname]

/-- A look-up sees only the providers of its name. -/
theorem find?_congr {r r' : Registry} (h : r.names.Nodup) (h' : r'.names.Nodup) {name : String}
    (hr : ∀ p, p.name = name → (p ∈ r ↔ p ∈ r')) : r.find? name = r'.find? name := by
  ext p
  rw [find?_eq_some_iff_mem h, find?_eq_some_iff_mem h']
  exact and_congr_left (hr p)

end Registry
end ClaimMapping.Provider
