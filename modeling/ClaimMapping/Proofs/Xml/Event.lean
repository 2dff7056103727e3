import ClaimMapping.Proofs.Xml.Markup
import ClaimMapping.Xml.Event

namespace ClaimMapping.Xml

@[simp] theorem Stream.append_nil (s : Stream) : Stream.append [] s = s := rfl

theorem Stream.append_append (es fs : List Event) (s : Stream) :
    Stream.append (es ++ fs) s = Stream.append es (Stream.append fs s) := by
  simp [Stream.append]

/-- What is read from character data on. -/
def afterText (text : List Char) (next : Stream) : Stream :=
  match textEvents text with
  | .error d => .broken d
  | .ok es => Stream.append es next

/-- What is read from a piece of markup on, behind its `<`. -/
def afterMarkup (opened : List Open) (text : List Char) (next : List Open → List Char → Stream) :
    Stream :=
  match takeMarkup text with
  | .error d => .broken d
  | .ok (m, rest) =>
    match m.events opened with
    | .error d => .broken d
    | .ok (es, opened) => Stream.append es (next opened rest)

@[simp] theorem afterText_nil (next : Stream) : afterText [] next = next := rfl

section Steps

variable {fuel : Nat} {opened : List Open} {text : List Char}

theorem span_text (h : '<' ∉ text) (rest : List Char) :
    (text ++ '<' :: rest).span (· != '<') = (text, '<' :: rest) := by
  have hall : ∀ c ∈ text, (c != '<') = true := by
    intro c hc
    simpa using ne_of_mem_of_not_mem hc h
  rw [List.span_eq_takeWhile_dropWhile, List.takeWhile_append_of_pos hall,
    List.dropWhile_append_of_pos hall]
  simp

theorem eventsUpTo_text (h : '<' ∉ text) :
    eventsUpTo (fuel + 1) opened text = afterText text ⟨[], none⟩ := by
  have hall : ∀ c ∈ text, (c != '<') = true := by
    intro c hc
    simpa using ne_of_mem_of_not_mem hc h
  have hspan : text.span (· != '<') = (text, []) := by
    rw [List.span_eq_takeWhile_dropWhile, List.takeWhile_eq_self_iff.mpr hall,
      List.dropWhile_eq_nil_iff.mpr hall]
  rw [eventsUpTo, hspan, afterText]
  dsimp only
  cases textEvents text with
  | error d => rfl
  | ok es => simp [Stream.append]

theorem eventsUpTo_markup (h : '<' ∉ text) (rest : List Char) :
    eventsUpTo (fuel + 1) opened (text ++ '<' :: rest) =
      afterText text (afterMarkup opened rest (eventsUpTo fuel)) := by
  rw [eventsUpTo, span_text h, afterText, afterMarkup]
  dsimp only
  cases textEvents text with
  | error d => rfl
  | ok es =>
    dsimp only
    cases takeMarkup rest with
    | error d => rfl
    | ok found =>
      dsimp only
      cases found.1.events opened with
      | error d => rfl
      | ok more =>
        dsimp only
        rw [Stream.append_append]

/-- What follows a piece of markup is read only from behind it. -/
theorem afterMarkup_congr {next next' : List Open → List Char → Stream}
    (h : ∀ opened rest, rest <:+ text → next opened rest = next' opened rest) :
    afterMarkup opened text next = afterMarkup opened text next' := by
  unfold afterMarkup
  cases htake : takeMarkup text with
  | error d => rfl
  | ok found =>
    have hrest : found.2 <:+ text := suffix_of_takeMarkup htake
    dsimp only
    cases found.1.events opened with
    | error d => rfl
    | ok more =>
      dsimp only
      rw [h _ _ hrest]

/-- More fuel than text changes nothing. -/
theorem eventsUpTo_congr {fuel' : Nat} (h : text.length < fuel) (h' : text.length < fuel') :
    eventsUpTo fuel opened text = eventsUpTo fuel' opened text := by
  induction fuel generalizing fuel' opened text with
  | zero => omega
  | succ fuel ih =>
    obtain ⟨fuel', rfl⟩ := Nat.exists_eq_succ_of_ne_zero (Nat.ne_zero_of_lt h')
    by_cases hmem : '<' ∈ text
    · obtain ⟨before, rest, rfl, hbefore⟩ := List.eq_append_cons_of_mem hmem
      simp only [List.length_append, List.length_cons] at h h'
      rw [eventsUpTo_markup hbefore, eventsUpTo_markup hbefore]
      congr 1
      apply afterMarkup_congr
      intro opened after hafter
      have hlength := hafter.length_le
      exact ih (by omega) (by omega)
    · rw [eventsUpTo_text hmem, eventsUpTo_text hmem]

/-- What is read from a place between two pieces on. -/
def eventsFrom (opened : List Open) (text : List Char) : Stream :=
  eventsUpTo (text.length + 1) opened text

theorem eventsFrom_text (h : '<' ∉ text) : eventsFrom opened text = afterText text ⟨[], none⟩ :=
  eventsUpTo_text h

/-- A document is read piece by piece: character data up to the next `<`, then one piece of
markup. -/
theorem eventsFrom_markup (h : '<' ∉ text) (rest : List Char) :
    eventsFrom opened (text ++ '<' :: rest) =
      afterText text (afterMarkup opened rest eventsFrom) := by
  rw [eventsFrom, eventsUpTo_markup h]
  congr 1
  apply afterMarkup_congr
  intro opened after hafter
  have hlength := hafter.length_le
  apply eventsUpTo_congr
  · simp only [List.length_append, List.length_cons]
    omega
  · omega

/-- Character data reaches up to the next piece of markup, or to the end. -/
theorem eventsFrom_append (h : '<' ∉ text) {rest : List Char}
    (hrest : rest = [] ∨ ∃ tail, rest = '<' :: tail) :
    eventsFrom opened (text ++ rest) = afterText text (eventsFrom opened rest) := by
  obtain rfl | ⟨tail, rfl⟩ := hrest
  · rw [List.append_nil, eventsFrom_text h]
    rfl
  · have hnone : '<' ∉ ([] : List Char) := List.not_mem_nil
    rw [eventsFrom_markup h, ← List.nil_append ('<' :: tail), eventsFrom_markup hnone,
      afterText_nil]

end Steps

/-- A comment ends the text in front of it. -/
theorem eventsFrom_comment {opened : List Open} {text body : List Char} (h : '<' ∉ text)
    (hbody : IsCommentBody body) (rest : List Char) :
    eventsFrom opened (text ++ (comment body ++ rest)) =
      afterText text (Stream.append [.aside] (eventsFrom opened rest)) := by
  have hwrites := writes_comment hbody rest
  rw [comment, List.cons_append, eventsFrom_markup h, afterMarkup, hwrites]
  rfl

end ClaimMapping.Xml
