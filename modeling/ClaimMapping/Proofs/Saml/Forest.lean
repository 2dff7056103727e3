import ClaimMapping.Proofs.Saml.Inert
import ClaimMapping.Proofs.Saml.Step
import ClaimMapping.Proofs.Xml.Nesting

namespace ClaimMapping.Provider.Saml

open Journal (bind_eq_ok_iff)
open Xml (levelBehind?)

/-- The events of a place in a forest: the open elements, the innermost first, each with what stands
in front of it, and the nodes behind the innermost start. -/
def eventsWithin : List (List Node × Xml.Element) → List Node → List Xml.Event
  | [], ns => eventsOf ns
  | (before, tag) :: outer, ns => eventsWithin outer before ++ .start tag :: eventsOf ns

theorem eventsWithin_concat (opened : List (List Node × Xml.Element)) (ns : List Node) (n : Node) :
    eventsWithin opened (ns ++ [n]) = eventsWithin opened ns ++ events n := by
  cases opened with
  | nil => rw [eventsWithin, eventsWithin, eventsOf_append, eventsOf_singleton]
  | cons o outer =>
    rw [eventsWithin, eventsWithin, eventsOf_append, eventsOf_singleton, List.append_assoc,
      List.cons_append]

/-- The end of an element makes it one of the nodes of the element around it. -/
theorem eventsWithin_close (outer : List (List Node × Xml.Element)) (before : List Node)
    (tag : Xml.Element) (ns : List Node) :
    eventsWithin outer (before ++ [.element tag ns]) =
      eventsWithin ((before, tag) :: outer) ns ++ [.close] := by
  rw [eventsWithin_concat, eventsWithin, events, List.append_assoc, List.cons_append]

/-- Events behind a place lead to a place. -/
theorem exists_place (opened : List (List Node × Xml.Element)) (ns : List Node)
    {es : List Xml.Event} {level : Nat} (h : levelBehind? opened.length es = some level) :
    ∃ opened' ns', opened'.length = level ∧
      eventsWithin opened ns ++ es = eventsWithin opened' ns' := by
  induction es generalizing opened ns with
  | nil => exact ⟨opened, ns, Option.some.inj h, List.append_nil _⟩
  | cons e es ih =>
    rw [List.append_cons]
    cases e with
    | start tag =>
      exact ih ((ns, tag) :: opened) [] h
    | close =>
      cases opened with
      | nil => cases h
      | cons o outer =>
        obtain ⟨before, tag⟩ := o
        obtain ⟨opened', ns', hlength, hplace⟩ := ih outer (before ++ [.element tag ns]) h
        exact ⟨opened', ns', hlength, by rwa [eventsWithin_close] at hplace⟩
    | text content =>
      obtain ⟨opened', ns', hlength, hplace⟩ := ih opened (ns ++ [.text content]) h
      exact ⟨opened', ns', hlength, by rwa [eventsWithin_concat] at hplace⟩
    | characterData content =>
      obtain ⟨opened', ns', hlength, hplace⟩ := ih opened (ns ++ [.characterData content]) h
      exact ⟨opened', ns', hlength, by rwa [eventsWithin_concat] at hplace⟩
    | aside =>
      obtain ⟨opened', ns', hlength, hplace⟩ := ih opened (ns ++ [.aside]) h
      exact ⟨opened', ns', hlength, by rwa [eventsWithin_concat] at hplace⟩

/-- Events behind a place that close all that is open there, and all that they open. -/
theorem exists_forest (opened : List (List Node × Xml.Element)) (ns : List Node)
    {es : List Xml.Event} (h : levelBehind? opened.length es = some 0) :
    ∃ forest, eventsWithin opened ns ++ es = eventsOf forest := by
  obtain ⟨opened', forest, hlength, hplace⟩ := exists_place opened ns h
  obtain rfl := List.length_eq_zero_iff.mp hlength
  exact ⟨forest, hplace⟩

namespace State

theorem path_of_enter {s s' : State} {e : Xml.Element} {nm : String}
    (h : s.enter e nm = .ok s') : s'.path = s.path := by
  obtain ⟨-, -, rfl⟩ | ⟨-, -, rfl⟩ | ⟨-, p, -, rfl⟩ | ⟨-, -, rfl⟩ := enter_cases h <;> rfl

theorem path_leave (s : State) (nm : String) (text : List Char) :
    (s.leave nm text).path = s.path := by
  obtain ⟨-, h⟩ | ⟨-, h⟩ | ⟨-, p, -, h⟩ | ⟨-, -, h⟩ := leave_cases s nm text <;> rw [h]

theorem path_finishElement (s : State) : s.finishElement.path = s.path.dropLast := by
  unfold finishElement
  split
  case h_1 hlast =>
    rw [List.getLast?_eq_none_iff.mp hlast]
    rfl
  case h_2 =>
    dsimp only
    split_ifs
    · rw [path_leave]
    · rfl

/-- The path of a state names the elements that are open. -/
theorem length_path_of_run {es : List Xml.Event} {s s' : State} (h : s.run es = .ok s')
    {level : Nat} (hl : levelBehind? s.path.length es = some level) :
    s'.path.length = level := by
  induction es generalizing s with
  | nil =>
    cases h
    exact Option.some.inj hl
  | cons e es ih =>
    obtain ⟨s₁, hstep, h⟩ := bind_eq_ok_iff.mp h
    refine ih h ?_
    cases e with
    | start tag =>
      obtain ⟨s₂, henter, hs⟩ := bind_eq_ok_iff.mp hstep
      cases hs
      rw [List.length_append, path_of_enter henter]
      exact hl
    | close =>
      cases hstep
      rw [path_finishElement, List.length_dropLast]
      cases hp : s.path.length with
      | zero =>
        rw [hp] at hl
        cases hl
      | succ n =>
        rw [hp] at hl
        exact hl
    | text =>
      cases hstep
      exact hl
    | characterData =>
      cases hstep
      exact hl
    | aside =>
      cases hstep
      exact hl

end State

/-- A text that is accepted is a forest: every element that it opens it closes, in the order in
which elements nest. -/
theorem exists_forest_of_read {payload : String} {a : Assertion} (h : read payload = .ok a) :
    ∃ forest, Xml.events payload.toList = ⟨eventsOf forest, none⟩ := by
  obtain ⟨level, hl⟩ := Xml.nests_events payload.toList
  obtain ⟨s, hrun, h⟩ := bind_eq_ok_iff.mp h
  have hlength : s.path.length = level := State.length_path_of_run hrun hl
  split at h
  case h_1 => cases h
  case h_2 hdefect =>
    unfold State.finish at h
    split_ifs at h with _ hpath
    rw [Bool.not_eq_true, Bool.not_eq_false', List.isEmpty_iff] at hpath
    rw [← hlength, hpath] at hl
    obtain ⟨forest, hforest⟩ := exists_forest [] [] hl
    exact ⟨forest, congrArg₂ Xml.Stream.mk hforest hdefect⟩

end ClaimMapping.Provider.Saml
