import ClaimMapping.Proofs.Regex.Capture
import Mathlib

namespace ClaimMapping.Regex

/-- All the text, `least` to `most` characters of a set. -/
def wholeRun (s : CharSet) (least most : Nat) : Regex :=
  .seq (.look .textStart) (.seq (.repeat least (some most) true (.set s)) (.look .textEnd))

/-- At least `least` characters of a set, and at most `more` others behind them. -/
structure IsRun (s : CharSet) (least more : Nat) (text : List Char) : Prop where
  holds : ∀ c ∈ text, s.holds c = true
  least_le : least ≤ text.length
  length_le : text.length ≤ least + more

section

variable {s : CharSet} {least more : Nat} {c : Char} {text : List Char}

theorem isRun_nil_iff : IsRun s least more [] ↔ least = 0 := by
  constructor
  · intro h
    exact Nat.le_zero.mp h.least_le
  · rintro rfl
    exact ⟨by simp, le_rfl, Nat.zero_le _⟩

theorem isRun_none_iff : IsRun s 0 0 text ↔ text = [] := by
  constructor
  · intro h
    exact List.length_eq_zero_iff.mp (Nat.le_zero.mp h.length_le)
  · rintro rfl
    exact isRun_nil_iff.mpr rfl

theorem isRun_required_cons_iff :
    IsRun s (least + 1) more (c :: text) ↔ s.holds c = true ∧ IsRun s least more text := by
  constructor
  · intro h
    obtain ⟨hholds, hleast, hlength⟩ := h
    obtain ⟨hc, htext⟩ := List.forall_mem_cons.mp hholds
    rw [List.length_cons] at hleast hlength
    exact ⟨hc, htext, by omega, by omega⟩
  · intro h
    obtain ⟨hc, htext, hleast, hlength⟩ := h
    refine ⟨List.forall_mem_cons.mpr ⟨hc, htext⟩, ?_, ?_⟩
    · exact Nat.succ_le_succ hleast
    · rw [List.length_cons]
      omega

theorem isRun_optional_cons_iff :
    IsRun s 0 (more + 1) (c :: text) ↔ s.holds c = true ∧ IsRun s 0 more text := by
  constructor
  · intro h
    obtain ⟨hc, htext⟩ := List.forall_mem_cons.mp h.holds
    have hlength := h.length_le
    rw [List.length_cons] at hlength
    exact ⟨hc, htext, Nat.zero_le _, by omega⟩
  · intro h
    obtain ⟨hc, htext, -, hlength⟩ := h
    refine ⟨List.forall_mem_cons.mpr ⟨hc, htext⟩, Nat.zero_le _, ?_⟩
    rw [List.length_cons]
    omega

end

namespace Program

/-- The steps of a repetition up to the step `last`: first the characters that it must take, and
then those that it may leave out, each of them together with all that are behind it. -/
inductive Repeats (p : Program) (s : CharSet) (last : Nat) :
    (least more first : Nat) → Prop where
  | leave : p.Repeats s last 0 0 last
  | optional {more first body inner : Nat} (hfork : p[first]? = some (.fork body last))
      (hbody : p[body]? = some (.take s inner)) (h : p.Repeats s last 0 more inner) :
      p.Repeats s last 0 (more + 1) first
  | required {least more first inner : Nat} (hfirst : p[first]? = some (.take s inner))
      (h : p.Repeats s last least more inner) : p.Repeats s last (least + 1) more first

variable {p q : Program} {s : CharSet} {last least more first : Nat}

theorem Repeats.mono (h : p.Extends q) (hrepeats : q.Repeats s last least more first) :
    p.Repeats s last least more first := by
  induction hrepeats with
  | leave => exact .leave
  | optional hfork hbody _ ih => exact .optional (h _ _ hfork) (h _ _ hbody) ih
  | required hfirst _ ih => exact .required (h _ _ hfirst) ih

theorem repeats_optionalCopies (h : p.Repeats s last 0 more first) (n : Nat) :
    (optionalCopies (compile (.set s)) true last n p first).1.Extends p ∧
      (optionalCopies (compile (.set s)) true last n p first).1.Repeats s last 0 (more + n)
        (optionalCopies (compile (.set s)) true last n p first).2 := by
  induction n generalizing p more first with
  | zero => exact ⟨.refl p, h⟩
  | succ n ih =>
    have hbody := extends_push p (.take s first)
    have hfork := extends_push (p.push (.take s first)) (.fork p.size last)
    have hall := hfork.trans hbody
    have hcopy := Repeats.optional Array.getElem?_push_size
      (hfork _ _ Array.getElem?_push_size) (h.mono hall)
    obtain ⟨hextends, hrepeats⟩ := ih hcopy
    rw [Nat.add_assoc, Nat.add_comm 1] at hrepeats
    exact ⟨hextends.trans hall, hrepeats⟩

theorem repeats_copies (h : p.Repeats s last least more first) (n : Nat) :
    (copies (compile (.set s)) n p first).1.Extends p ∧
      (copies (compile (.set s)) n p first).1.Repeats s last (least + n) more
        (copies (compile (.set s)) n p first).2 := by
  induction n generalizing p least first with
  | zero => exact ⟨.refl p, h⟩
  | succ n ih =>
    have hbody := extends_push p (.take s first)
    have hcopy := Repeats.required Array.getElem?_push_size (h.mono hbody)
    obtain ⟨hextends, hrepeats⟩ := ih hcopy
    rw [Nat.add_assoc, Nat.add_comm 1] at hrepeats
    exact ⟨hextends.trans hbody, hrepeats⟩

/-- The program of a repeated set has its required copies in front of its optional ones. -/
theorem repeats_compile (p : Program) (s : CharSet) (least most next : Nat) :
    (compile (.repeat least (some most) true (.set s)) p next).1.Extends p ∧
      (compile (.repeat least (some most) true (.set s)) p next).1.Repeats s next least
        (most - least) (compile (.repeat least (some most) true (.set s)) p next).2 := by
  obtain ⟨hoptional, hmore⟩ := repeats_optionalCopies (p := p) (s := s) .leave (most - least)
  obtain ⟨hrequired, hall⟩ := repeats_copies hmore least
  rw [Nat.zero_add, Nat.zero_add] at hall
  exact ⟨hrequired.trans hoptional, hall⟩

/-- The steps of a repetition between the two ends of the text. -/
inductive MatchesRun (p : Program) (start : Nat) (s : CharSet) (least more : Nat) : Prop where
  | intro (first last finish : Nat) (hstart : p[start]? = some (.look .textStart first))
      (hrepeats : p.Repeats s last least more first)
      (hlast : p[last]? = some (.look .textEnd finish)) (hfinish : p[finish]? = some .done)

/-- The program of the whole run stands between the start and the end of the text. -/
theorem matchesRun_wholeRun (s : CharSet) (least most : Nat) :
    (compile (wholeRun s least most) #[.done] 0).1.MatchesRun
      (compile (wholeRun s least most) #[.done] 0).2 s least (most - least) := by
  obtain ⟨hextends, hrepeats⟩ := repeats_compile #[.done, .look .textEnd 0] s least most 1
  have hpush := extends_push
    (compile (.repeat least (some most) true (.set s)) #[.done, .look .textEnd 0] 1).1
    (.look .textStart
      (compile (.repeat least (some most) true (.set s)) #[.done, .look .textEnd 0] 1).2)
  have hall := hpush.trans hextends
  exact .intro _ 1 0 Array.getElem?_push_size (hrepeats.mono hpush) (hall 1 _ rfl) (hall 0 _ rfl)

end Program

section

variable {p : Program} {s : CharSet} {first last finish least more : Nat} {before rest : List Char}
  {slots : Slots}

theorem ends_textEnd (hlast : p[last]? = some (.look .textEnd finish))
    (hfinish : p[finish]? = some .done) : ∃ n, Ends p n ⟨last, .after before [], slots⟩ slots :=
  Ends.only hlast (by simp) rfl ⟨0, .done hfinish⟩

theorem fails_textEnd (hlast : p[last]? = some (.look .textEnd finish)) (hrest : rest ≠ []) :
    Fails p ⟨last, .after before rest, slots⟩ := by
  obtain ⟨c, rest, rfl⟩ := List.exists_cons_of_ne_nil hrest
  exact .none hlast (by simp) rfl

/-- A step back is never needed: the end of the text comes behind the last character. -/
theorem Program.Repeats.ends (h : p.Repeats s last least more first)
    (hlast : p[last]? = some (.look .textEnd finish)) (hfinish : p[finish]? = some .done)
    (hrun : IsRun s least more rest) :
    ∃ n, Ends p n ⟨first, .after before rest, slots⟩ slots := by
  induction h generalizing before rest with
  | leave =>
    rw [isRun_none_iff.mp hrun]
    exact ends_textEnd hlast hfinish
  | optional hfork hbody _ ih =>
    cases rest with
    | nil =>
      have hend : ∃ n, Ends p n ⟨last, .after before [], slots⟩ slots :=
        ends_textEnd hlast hfinish
      obtain ⟨n, hends⟩ := hend
      refine ⟨n + 1, .second hfork (by simp) rfl ?_ hends⟩
      exact .none hbody (by simp) (follow_take_of_not_holds (by simp))
    | cons c rest =>
      obtain ⟨hc, hrest⟩ := isRun_optional_cons_iff.mp hrun
      have htake : ∃ n, Ends p n ⟨_, .after before (c :: rest), slots⟩ slots :=
        Ends.only hbody (by simp) (follow_take hc) (ih hrest)
      obtain ⟨n, hends⟩ := htake
      exact ⟨n + 1, .first hfork (by simp) rfl hends⟩
  | required hfirst _ ih =>
    cases rest with
    | nil => exact absurd (isRun_nil_iff.mp hrun) (Nat.succ_ne_zero _)
    | cons c rest =>
      obtain ⟨hc, hrest⟩ := isRun_required_cons_iff.mp hrun
      exact Ends.only hfirst (by simp) (follow_take hc) (ih hrest)

theorem Program.Repeats.fails (h : p.Repeats s last least more first)
    (hlast : p[last]? = some (.look .textEnd finish)) (hrun : ¬ IsRun s least more rest) :
    Fails p ⟨first, .after before rest, slots⟩ := by
  -- a character is taken only if it is in the set, and what is left is no run then
  have take {first inner : Nat} {before rest : List Char} {c : Char}
      (hfirst : p[first]? = some (.take s inner))
      (hrest : s.holds c = true → Fails p ⟨inner, .after (before ++ [c]) rest, slots⟩) :
      Fails p ⟨first, .after before (c :: rest), slots⟩ := by
    by_cases hc : s.holds c = true
    · exact .only hfirst (by simp) (follow_take hc) (hrest hc)
    · rw [Bool.not_eq_true] at hc
      refine .none hfirst (by simp) (follow_take_of_not_holds fun d hd => ?_)
      rwa [← Option.some.inj hd]
  induction h generalizing before rest with
  | leave => exact fails_textEnd hlast (mt isRun_none_iff.mpr hrun)
  | optional hfork hbody _ ih =>
    cases rest with
    | nil => exact absurd (isRun_nil_iff.mpr rfl) hrun
    | cons c rest =>
      have hbranch : Fails p ⟨_, .after before (c :: rest), slots⟩ :=
        take hbody fun hc => ih fun hrest => hrun (isRun_optional_cons_iff.mpr ⟨hc, hrest⟩)
      refine .follow hfork (by simp) (List.forall_mem_cons.mpr ⟨hbranch, ?_⟩)
      exact List.forall_mem_singleton.mpr (fails_textEnd hlast (List.cons_ne_nil c rest))
  | required hfirst _ ih =>
    cases rest with
    | nil => exact .none hfirst (by simp) (follow_take_of_not_holds (by simp))
    | cons c rest =>
      exact take hfirst fun hc =>
        ih fun hrest => hrun (isRun_required_cons_iff.mpr ⟨hc, hrest⟩)

/-- No match begins behind the start of the text. -/
theorem Program.MatchesRun.fails {start : Nat} (h : p.MatchesRun start s least more)
    (hrun : before = [] → ¬ IsRun s least more rest) :
    Fails p ⟨start, .after before rest, slots⟩ := by
  obtain ⟨first, last, finish, hstart, hrepeats, hlast, -⟩ := h
  obtain rfl | ⟨front, c, rfl⟩ := before.eq_nil_or_concat'
  · exact .only hstart (by simp) rfl (hrepeats.fails hlast (hrun rfl))
  · exact .none hstart (by simp) (by simp [Thread.follow, Cursor.after, Look.holds])

theorem Program.MatchesRun.ends {start : Nat} (h : p.MatchesRun start s least more)
    (hrun : IsRun s least more rest) : ∃ n, Ends p n ⟨start, .after [] rest, []⟩ [] := by
  obtain ⟨first, last, finish, hstart, hrepeats, hlast, hfinish⟩ := h
  exact Ends.only hstart (by simp) rfl (hrepeats.ends hlast hfinish hrun)

end

/-- The whole text is a run of the set, from its first character to its last. -/
theorem hasMatch_wholeRun_iff {s : CharSet} {least most : Nat} (hle : least ≤ most)
    (text : List Char) :
    (wholeRun s least most).hasMatch text = true ↔
      (∀ c ∈ text, s.holds c = true) ∧ least ≤ text.length ∧ text.length ≤ most := by
  have hprogram := Program.matchesRun_wholeRun s least most
  have hbounds : IsRun s least (most - least) text ↔
      (∀ c ∈ text, s.holds c = true) ∧ least ≤ text.length ∧ text.length ≤ most := by
    constructor
    · intro h
      exact ⟨h.holds, h.least_le, by have hlength := h.length_le; omega⟩
    · intro h
      obtain ⟨hholds, hleast, hmost⟩ := h
      exact ⟨hholds, hleast, by omega⟩
  rw [← hbounds, hasMatch, Option.isSome_iff_ne_none]
  constructor
  · intro hslots
    by_contra hrun
    refine hslots (slots?_of_fails rfl fun before rest htext => hprogram.fails ?_)
    rintro rfl
    rwa [htext] at hrun
  · intro hrun
    obtain ⟨n, hends⟩ := hprogram.ends hrun
    have hslots : (wholeRun s least most).slots? ([] ++ text) = some [] :=
      slots?_of_ends rfl (by simp) hends
    rw [List.nil_append] at hslots
    rw [hslots]
    exact Option.some_ne_none _

end ClaimMapping.Regex
