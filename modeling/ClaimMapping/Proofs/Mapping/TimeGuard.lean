import ClaimMapping.Mapping.Check
import ClaimMapping.Proofs.Text.Search

namespace ClaimMapping.Mapping

/-- White space only. -/
def IsBlankRun (run : List Char) : Prop := ∀ c ∈ run, Text.isBlank c = true

/-- The pattern of the guard at the front of a text. -/
def BeginsTimeOfNumber (text : List Char) : Prop :=
  ∃ a b c rest, IsBlankRun a ∧ IsBlankRun b ∧ IsBlankRun c ∧
    text = "timestamp".toList ++ a ++ '(' :: (b ++ "int".toList ++ c ++ '(' :: rest)

/-- The pattern of the guard somewhere in a source. -/
def MakesTimeOfNumber (source : String) : Prop :=
  ∃ before text, source.toList = before ++ text ∧ BeginsTimeOfNumber text

theorem skipBlank_append_cons {run : List Char} (h : IsBlankRun run) {c : Char}
    (hc : Text.isBlank c = false) (rest : List Char) : skipBlank (run ++ c :: rest) = c :: rest :=
  Text.dropWhile_append_cons h hc rest

theorem exists_isBlankRun_append_skipBlank (text : List Char) :
    ∃ run, IsBlankRun run ∧ text = run ++ skipBlank text :=
  ⟨text.takeWhile Text.isBlank, fun _ hc => List.mem_takeWhile_imp hc,
    List.takeWhile_append_dropWhile.symm⟩

theorem stripCall?_eq_some_iff {name : String} {text rest : List Char} :
    stripCall? name text = some rest ↔
      ∃ run, IsBlankRun run ∧ text = name.toList ++ run ++ '(' :: rest := by
  simp only [stripCall?, bind, Option.bind_eq_some_iff, Text.stripStart?_eq_some_iff,
    List.singleton_append]
  constructor
  · intro h
    obtain ⟨r, rfl, hr⟩ := h
    obtain ⟨run, hrun, he⟩ := exists_isBlankRun_append_skipBlank r
    exact ⟨run, hrun, by rw [List.append_assoc, ← hr, ← he]⟩
  · intro h
    obtain ⟨run, hrun, rfl⟩ := h
    exact ⟨run ++ '(' :: rest, List.append_assoc .., skipBlank_append_cons hrun (by decide) rest⟩

theorem beginsTimeOfNumber_iff {text : List Char} :
    beginsTimeOfNumber text = true ↔ BeginsTimeOfNumber text := by
  simp only [beginsTimeOfNumber, Option.isSome_iff_exists, Option.bind_eq_some_iff,
    stripCall?_eq_some_iff]
  constructor
  · intro h
    obtain ⟨rest, r, ⟨a, ha, rfl⟩, c, hc, hr⟩ := h
    obtain ⟨b, hb, he⟩ := exists_isBlankRun_append_skipBlank r
    refine ⟨a, b, c, rest, ha, hb, hc, ?_⟩
    rw [he, hr]
    simp only [List.append_assoc]
  · intro h
    obtain ⟨a, b, c, rest, ha, hb, hc, rfl⟩ := h
    refine ⟨rest, _, ⟨a, ha, rfl⟩, c, hc, ?_⟩
    have hi : "int".toList ++ c ++ '(' :: rest = 'i' :: ("nt".toList ++ c ++ '(' :: rest) := rfl
    rw [List.append_assoc, List.append_assoc, ← List.append_assoc _ c, hi]
    exact skipBlank_append_cons hb (by decide) _

theorem makesTimeOfNumber_iff_exists {text : List Char} :
    makesTimeOfNumber text = true ↔
      ∃ before rest, text = before ++ rest ∧ BeginsTimeOfNumber rest := by
  induction text with
  | nil =>
    refine ⟨fun h => absurd h Bool.false_ne_true, ?_⟩
    intro h
    obtain ⟨before, rest, he, a, b, c, r, -, -, -, rfl⟩ := h
    simp at he
  | cons x text ih =>
    rw [makesTimeOfNumber, Bool.or_eq_true, beginsTimeOfNumber_iff, ih]
    constructor
    · intro h
      rcases h with h | ⟨before, rest, rfl, h⟩
      · exact ⟨[], x :: text, rfl, h⟩
      · exact ⟨x :: before, rest, rfl, h⟩
    · intro h
      obtain ⟨before, rest, he, h⟩ := h
      cases before with
      | nil => exact .inl (he ▸ h)
      | cons y before => exact .inr ⟨before, rest, (List.cons.inj he).2, h⟩

/-- The guard is a pattern in the text: `timestamp`, an opening parenthesis, `int` and another one,
with any white space before each of the last three. -/
theorem makesTimeOfNumber_iff {source : String} :
    makesTimeOfNumber source.toList = true ↔ MakesTimeOfNumber source :=
  makesTimeOfNumber_iff_exists

end ClaimMapping.Mapping
