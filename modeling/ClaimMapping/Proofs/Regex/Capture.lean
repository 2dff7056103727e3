import ClaimMapping.Proofs.Regex.Literal
import ClaimMapping.Proofs.Text.Occurrence
import Mathlib

namespace ClaimMapping.Regex

section

variable {p : Program} {slots out : Slots} {before rest text : List Char} {c : Char} {set : CharSet}
  {first next last n : Nat}

theorem follow_take (h : set.holds c = true) :
    Thread.follow ⟨first, .after before (c :: rest), slots⟩ (.take set next) =
      [⟨next, .after (before ++ [c]) rest, slots⟩] := by
  simp [Thread.follow, Cursor.next?_after, h]

theorem follow_take_of_not_holds (h : ∀ c ∈ rest.head?, set.holds c = false) :
    Thread.follow ⟨first, .after before rest, slots⟩ (.take set next) = [] := by
  cases rest with
  | nil => rfl
  | cons c rest => simp [Thread.follow, Cursor.next?_after, h c rfl]

/-- Where one thread follows, a way to the end goes through it. -/
theorem Ends.only {t u : Thread} {step : Step} (h : p[t.step]? = some step) (other : step ≠ .done)
    (follow : t.follow step = [u]) (ends : ∃ n, Ends p n u out) : ∃ n, Ends p n t out := by
  obtain ⟨n, ends⟩ := ends
  exact ⟨n + 1, .first h other follow ends⟩

theorem Fails.only {t u : Thread} {step : Step} (h : p[t.step]? = some step) (other : step ≠ .done)
    (follow : t.follow step = [u]) (fails : Fails p u) : Fails p t := by
  refine .follow h other fun v hv => ?_
  rw [follow, List.mem_singleton] at hv
  rwa [hv]

theorem Fails.none {t : Thread} {step : Step} (h : p[t.step]? = some step) (other : step ≠ .done)
    (follow : t.follow step = []) : Fails p t := by
  refine .follow h other fun v hv => ?_
  rw [follow] at hv
  cases hv

theorem holds_single_self (c : Char) : (CharSet.single c).holds c = true := by
  simp [CharSet.single, CharSet.holds]

theorem holds_single_of_ne {c d : Char} (h : d ≠ c) : (CharSet.single c).holds d = false := by
  simp only [CharSet.single, CharSet.holds, Bool.and_eq_false_iff, decide_eq_false_iff_not]
  by_contra hle
  rw [not_or, not_not, not_not] at hle
  exact h (le_antisymm hle.2 hle.1)

/-- Reading a literal text goes on behind it. -/
theorem Program.Reads.ends (h : p.Reads first text last)
    (ends : ∃ n, Ends p n ⟨last, .after (before ++ text) rest, slots⟩ out) :
    ∃ n, Ends p n ⟨first, .after before (text ++ rest), slots⟩ out := by
  induction text generalizing first before with
  | nil =>
    cases h
    simpa using ends
  | cons c text ih =>
    obtain ⟨next, hstep, hreads⟩ := h
    refine Ends.only hstep (by simp) (follow_take (holds_single_self c)) (ih hreads ?_)
    simpa using ends

theorem Program.Reads.fails (h : p.Reads first text last)
    (fails : Fails p ⟨last, .after (before ++ text) rest, slots⟩) :
    Fails p ⟨first, .after before (text ++ rest), slots⟩ := by
  induction text generalizing first before with
  | nil =>
    cases h
    simpa using fails
  | cons c text ih =>
    obtain ⟨next, hstep, hreads⟩ := h
    refine Fails.only hstep (by simp) (follow_take (holds_single_self c)) (ih hreads ?_)
    simpa using fails

theorem Program.Reads.fails_of_not_prefix (h : p.Reads first text last) (hnot : ¬ text <+: rest) :
    Fails p ⟨first, .after before rest, slots⟩ := by
  induction text generalizing first before rest with
  | nil => exact absurd List.nil_prefix hnot
  | cons c text ih =>
    obtain ⟨next, hstep, hreads⟩ := h
    by_cases hhead : rest.head? = some c
    · obtain ⟨rest, rfl⟩ := List.head?_eq_some_iff.mp hhead
      refine Fails.only hstep (by simp) (follow_take (holds_single_self c)) (ih hreads ?_)
      exact fun hstarts => hnot (List.cons_prefix_cons.mpr ⟨rfl, hstarts⟩)
    · refine Fails.none hstep (by simp) (follow_take_of_not_holds fun d hd => ?_)
      refine holds_single_of_ne ?_
      rintro rfl
      exact hhead hd

end

theorem holds_anyChar {c : Char} (h : c ≠ '\n') :
    (CharSet.complement (.single '\n')).holds c = true := by
  rw [CharSet.holds, holds_single_of_ne h]
  rfl

section

variable {p : Program} {loop body closing tail finish : Nat} {front back before rest : List Char}

/-- The group goes on as long as the second text stands further on, and then stops. -/
theorem fails_loop (hloop : p[loop]? = some (.fork body closing))
    (hbody : p[body]? = some (.take (.complement (.single '\n')) loop))
    (hclosing : p[closing]? = some (.mark 3 tail)) (hback : p.Reads tail back finish)
    (hnot : ¬ back <:+: rest) (slots : Slots) : Fails p ⟨loop, .after before rest, slots⟩ := by
  induction rest generalizing before with
  | nil =>
    refine .follow hloop (by simp) (List.forall_mem_cons.mpr ⟨?_, List.forall_mem_singleton.mpr ?_⟩)
    · exact .none hbody (by simp) (follow_take_of_not_holds (by simp))
    · exact .only hclosing (by simp) rfl (hback.fails_of_not_prefix fun h => hnot h.isInfix)
  | cons c rest ih =>
    refine .follow hloop (by simp) (List.forall_mem_cons.mpr ⟨?_, List.forall_mem_singleton.mpr ?_⟩)
    · by_cases hc : c = '\n'
      · refine .none hbody (by simp) (follow_take_of_not_holds fun d hd => ?_)
        cases hd
        rw [hc]
        decide
      · exact .only hbody (by simp) (follow_take (holds_anyChar hc))
          (ih fun h => hnot (List.infix_cons h))
    · exact .only hclosing (by simp) rfl (hback.fails_of_not_prefix fun h => hnot h.isInfix)

/-- The group takes the longest text that the second text follows. -/
theorem ends_loop (hloop : p[loop]? = some (.fork body closing))
    (hbody : p[body]? = some (.take (.complement (.single '\n')) loop))
    (hclosing : p[closing]? = some (.mark 3 tail)) (hback : p.Reads tail back finish)
    (hfinish : p[finish]? = some .done) {taken : List Char} (h : Text.IsLast back rest taken)
    (hline : '\n' ∉ rest) (slots : Slots) :
    ∃ n, Ends p n ⟨loop, .after before rest, slots⟩
      ((3, before.length + taken.length) :: slots) := by
  have hstop {before rest : List Char} (hstarts : back <+: rest) :
      ∃ n, Ends p n ⟨closing, .after before rest, slots⟩ ((3, before.length) :: slots) := by
    obtain ⟨others, rfl⟩ := hstarts
    exact Ends.only hclosing (by simp) rfl (hback.ends ⟨0, .done hfinish⟩)
  induction rest generalizing before taken with
  | nil =>
    obtain ⟨rfl, rfl⟩ := h.of_nil
    have hnil : [] <+: ([] : List Char) := List.nil_prefix
    obtain ⟨n, hends⟩ := @hstop before [] hnil
    refine ⟨n + 1, .second hloop (by simp) rfl ?_ hends⟩
    exact .none hbody (by simp) (follow_take_of_not_holds (by simp))
  | cons c rest ih =>
    obtain ⟨hc, hline⟩ := not_or.mp (List.mem_cons.not.mp hline)
    have htake : Thread.follow ⟨body, .after before (c :: rest), slots⟩ (.take _ loop) =
        [⟨loop, .after (before ++ [c]) rest, slots⟩] := follow_take (holds_anyChar (Ne.symm hc))
    rcases Text.isLast_cons_iff.mp h with ⟨rfl, hstarts, hnot⟩ | ⟨taken, rfl, hlast⟩
    · obtain ⟨n, hends⟩ := hstop hstarts
      exact ⟨n + 1, .second hloop (by simp) rfl
        (.only hbody (by simp) htake (fails_loop hloop hbody hclosing hback hnot slots)) hends⟩
    · have hrest := @ih (before ++ [c]) taken hlast hline
      obtain ⟨n, hends⟩ := Ends.only hbody (by simp) htake hrest
      refine ⟨n + 1, .first hloop (by simp) rfl ?_⟩
      convert hends using 3
      simp only [List.length_append, List.length_cons, List.length_nil]
      omega

theorem Program.Captures.fails {start : Nat} (h : p.Captures start front back)
    (hnot : ∀ others, rest = front ++ others → ¬ back <:+: others) (slots : Slots) :
    Fails p ⟨start, .after before rest, slots⟩ := by
  obtain ⟨opening, loop, body, closing, tail, finish, hfront, hopening, hloop, hbody, hclosing,
    hback, -⟩ := h
  by_cases hstarts : front <+: rest
  · obtain ⟨others, rfl⟩ := hstarts
    exact hfront.fails (.only hopening (by simp) rfl
      (fails_loop hloop hbody hclosing hback (hnot others rfl) _))
  · exact hfront.fails_of_not_prefix hstarts

theorem Program.Captures.ends {start : Nat} (h : p.Captures start front back)
    {taken : List Char} (hlast : Text.IsLast back rest taken) (hline : '\n' ∉ rest) :
    ∃ n, Ends p n ⟨start, .after before (front ++ rest), []⟩
      [(3, before.length + front.length + taken.length), (2, before.length + front.length)] := by
  obtain ⟨opening, loop, body, closing, tail, finish, hfront, hopening, hloop, hbody, hclosing,
    hback, hfinish⟩ := h
  have hends : ∃ n, Ends p n ⟨loop, .after (before ++ front) rest, [(2, (before ++ front).length)]⟩
      [(3, (before ++ front).length + taken.length), (2, (before ++ front).length)] :=
    ends_loop hloop hbody hclosing hback hfinish hlast hline _
  rw [← List.length_append]
  exact hfront.ends (Ends.only hopening (by simp) rfl hends)

end

section

variable {front back source rest : List Char}

/-- The first text is found as far left as the second one still stands somewhere behind it, and the
group ends in front of the last occurrence of the second text. -/
theorem group?_around {taken : List Char} (h : Text.IsBehind front back source rest)
    (hlast : Text.IsLast back rest taken) (hline : '\n' ∉ source) :
    (around front back).group? 1 source = some taken := by
  obtain ⟨-, before, rfl, hfirst⟩ := h
  have hcaptures := Program.captures_around front back
  have hrest : '\n' ∉ rest := fun hmem => hline (by simp [hmem])
  have hends : ∃ n, Ends _ n ⟨_, .after before (front ++ rest), []⟩ _ := hcaptures.ends hlast hrest
  obtain ⟨n, hends⟩ := hends
  have hslots := slots?_of_ends (r := around front back) rfl (fun more x rest' hbefore => ?_) hends
  · have hdrop : (before ++ (front ++ rest)).drop (before.length + front.length) = rest := by
      rw [← List.append_assoc, ← List.length_append, List.drop_left]
    have htake : rest.take taken.length = taken := by
      obtain ⟨others, rfl⟩ := hlast.occurs
      rw [List.append_assoc, List.take_left]
    have hlength : before.length + front.length + taken.length - (before.length + front.length) =
        taken.length := Nat.add_sub_cancel_left ..
    simp only [group?, hslots]
    simp [List.lookup, hdrop, hlength, htake]
  · refine hcaptures.fails (fun others hothers hstands => ?_) []
    have hle := hfirst more others (by rw [hbefore, ← hothers]; simp) hstands
    rw [hbefore, List.length_append, List.length_cons] at hle
    omega

/-- Where no first text has a second one behind it, there is no match. -/
theorem group?_around_eq_none (h : ¬ ∃ rest, Text.IsBehind front back source rest) :
    (around front back).group? 1 source = none := by
  have hslots : (around front back).slots? source = none := by
    refine slots?_of_fails rfl fun before rest hsource => ?_
    refine (Program.captures_around front back).fails (fun others hothers hstands => ?_) []
    exact h (Text.exists_isBehind (hsource.trans (congrArg (before ++ ·) hothers)) hstands)
  rw [group?, hslots]
  rfl

end

end ClaimMapping.Regex
