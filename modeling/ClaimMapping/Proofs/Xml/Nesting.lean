import ClaimMapping.Proofs.Journal.Outcome
import ClaimMapping.Proofs.Xml.Event

namespace ClaimMapping.Xml

open Journal (bind_eq_ok_iff map_eq_ok_iff)

/-- The number of open elements behind some events, when there are `level` in front; none when an
element is closed that is not open. -/
def levelBehind? : (level : Nat) → List Event → Option Nat
  | level, [] => some level
  | level, .start _ :: es => levelBehind? (level + 1) es
  | 0, .close :: _ => none
  | level + 1, .close :: es => levelBehind? level es
  | level, _ :: es => levelBehind? level es

theorem levelBehind?_append (level : Nat) (es fs : List Event) :
    levelBehind? level (es ++ fs) = (levelBehind? level es).bind fun level =>
      levelBehind? level fs := by
  induction es generalizing level with
  | nil => rfl
  | cons e es ih =>
    cases e with
    | start => exact ih (level + 1)
    | close =>
      cases level with
      | zero => rfl
      | succ level => exact ih level
    | _ => exact ih level

theorem levelBehind?_textEvents {text : List Char} {es : List Event}
    (h : textEvents text = .ok es) (level : Nat) : levelBehind? level es = some level := by
  unfold textEvents at h
  split at h
  case h_1 =>
    cases h
    rfl
  case h_2 =>
    obtain ⟨content, -, rfl⟩ := map_eq_ok_iff.mp h
    rfl

/-- The level behind a piece of markup is the number of elements open there. -/
theorem levelBehind?_markup {m : Markup} {opened opened' : List Open} {es : List Event}
    (h : m.events opened = .ok (es, opened')) :
    levelBehind? opened.length es = some opened'.length := by
  cases m with
  | tag content =>
    obtain ⟨scope, -, h⟩ := bind_eq_ok_iff.mp h
    split_ifs at h with hslash
    · cases h
      rfl
    · cases h
      rfl
  | closing content =>
    cases opened with
    | nil => cases h
    | cons o opened =>
      unfold Markup.events at h
      dsimp only at h
      split_ifs at h
      cases h
      rfl
  | characterData content =>
    cases h
    rfl
  | comment =>
    cases h
    rfl
  | documentType =>
    cases h
    rfl
  | instruction =>
    cases h
    rfl

/-- No element is closed that is not open. -/
def Stream.Nests (level : Nat) (s : Stream) : Prop :=
  ∃ behind, levelBehind? level s.events = some behind

theorem Stream.nests_nil (level : Nat) (defect : Option Defect) : Nests level ⟨[], defect⟩ :=
  ⟨level, rfl⟩

theorem Stream.Nests.append {level behind : Nat} {es : List Event}
    (hes : levelBehind? level es = some behind) {s : Stream} (hs : s.Nests behind) :
    (Stream.append es s).Nests level := by
  obtain ⟨last, hs⟩ := hs
  refine ⟨last, ?_⟩
  rw [Stream.append, levelBehind?_append, hes]
  exact hs

theorem Stream.Nests.afterText {level : Nat} {next : Stream} (h : next.Nests level)
    (text : List Char) : (afterText text next).Nests level := by
  unfold Xml.afterText
  split
  case h_1 => exact Stream.nests_nil _ _
  case h_2 es htext => exact .append (levelBehind?_textEvents htext level) h

theorem nests_afterMarkup {next : List Open → List Char → Stream}
    (h : ∀ opened rest, (next opened rest).Nests opened.length) (opened : List Open)
    (text : List Char) : (afterMarkup opened text next).Nests opened.length := by
  unfold afterMarkup
  split
  case h_1 => exact Stream.nests_nil _ _
  case h_2 m rest _ =>
    split
    case h_1 => exact Stream.nests_nil _ _
    case h_2 es opened' hmarkup => exact .append (levelBehind?_markup hmarkup) (h opened' rest)

/-- A reader never closes more than it has opened. -/
theorem nests_eventsUpTo (fuel : Nat) (opened : List Open) (source : List Char) :
    (eventsUpTo fuel opened source).Nests opened.length := by
  induction fuel generalizing opened source with
  | zero => exact Stream.nests_nil _ _
  | succ fuel ih =>
    by_cases hmem : '<' ∈ source
    · obtain ⟨before, rest, rfl, hbefore⟩ := List.eq_append_cons_of_mem hmem
      rw [eventsUpTo_markup hbefore]
      exact (nests_afterMarkup ih opened rest).afterText before
    · rw [eventsUpTo_text hmem]
      exact (Stream.nests_nil _ _).afterText source

/-- A reader closes only elements that are open, so every sequence it gives has a level at each
place. -/
theorem nests_events (source : List Char) : (events source).Nests 0 := nests_eventsUpTo _ [] _

end ClaimMapping.Xml
