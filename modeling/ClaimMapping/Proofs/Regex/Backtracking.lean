import ClaimMapping.Regex.Match
import Mathlib

namespace ClaimMapping.Regex

/-- Every way from the thread is a dead end. -/
inductive Fails (p : Program) : Thread → Prop where
  | missing {t : Thread} (h : p[t.step]? = none) : Fails p t
  | follow {t : Thread} {step : Step} (h : p[t.step]? = some step) (other : step ≠ .done)
      (all : ∀ u ∈ t.follow step, Fails p u) : Fails p t

/-- The first way from the thread to the end of the program takes `n` steps and gives the slots. -/
inductive Ends (p : Program) : Nat → Thread → Slots → Prop where
  | done {t : Thread} (h : p[t.step]? = some .done) : Ends p 0 t t.slots
  | first {n : Nat} {t u : Thread} {step : Step} {others : List Thread} {slots : Slots}
      (h : p[t.step]? = some step) (other : step ≠ .done) (follow : t.follow step = u :: others)
      (ends : Ends p n u slots) : Ends p (n + 1) t slots
  | second {n : Nat} {t u v : Thread} {step : Step} {slots : Slots}
      (h : p[t.step]? = some step) (other : step ≠ .done) (follow : t.follow step = [v, u])
      (fails : Fails p v) (ends : Ends p n u slots) : Ends p (n + 1) t slots

/-- The same step at the same place of the text. -/
def Thread.Meets (t u : Thread) : Prop := t.step = u.step ∧ t.cursor = u.cursor

theorem Thread.Meets.follow {t u : Thread} (h : t.Meets u) (step : Step) :
    List.Forall₂ Meets (t.follow step) (u.follow step) := by
  obtain ⟨hstep, hcursor⟩ := h
  cases step with
  | take s next =>
    simp only [Thread.follow, hcursor]
    cases u.cursor.next? with
    | none => exact .nil
    | some xc =>
      dsimp only
      split_ifs
      · exact .cons ⟨rfl, rfl⟩ .nil
      · exact .nil
  | look l next =>
    simp only [Thread.follow, hcursor]
    split_ifs
    · exact .cons ⟨rfl, rfl⟩ .nil
    · exact .nil
  | mark slot next => exact .cons ⟨rfl, hcursor⟩ .nil
  | fork first second => exact .cons ⟨rfl, hcursor⟩ (.cons ⟨rfl, hcursor⟩ .nil)
  | done => exact .nil

/-- No step is followed by more than two threads, which bounds the fuel of a search. -/
theorem Thread.length_follow_le (t : Thread) (step : Step) : (t.follow step).length ≤ 2 := by
  cases step with
  | take s next =>
    simp only [follow]
    cases t.cursor.next? with
    | none => simp
    | some xc =>
      dsimp only
      split_ifs <;> simp
  | look l next =>
    simp only [follow]
    split_ifs <;> simp
  | _ => simp [follow]

section

variable {p : Program} {t u : Thread} {n m : Nat} {slots slots' : Slots}

/-- Whether a thread fails hangs on its place alone. -/
theorem Fails.meets (h : Fails p t) (hmeets : t.Meets u) : Fails p u := by
  induction h generalizing u with
  | missing h => exact .missing (hmeets.1 ▸ h)
  | @follow t step h other _ ih =>
    refine .follow (hmeets.1 ▸ h) other fun v hv => ?_
    obtain ⟨i, hi, rfl⟩ := List.getElem_of_mem hv
    have hfollow := hmeets.follow step
    have hlength := hfollow.length_eq
    have hi' : i < (t.follow step).length := hlength ▸ hi
    exact ih _ (List.getElem_mem hi') (List.forall₂_iff_get.mp hfollow |>.2 i hi' hi)

/-- Backtracking from one thread has one result. -/
theorem Ends.not_fails (h : Ends p n t slots) : ¬ Fails p t := by
  induction h with
  | done h =>
    intro hfails
    cases hfails with
    | missing hnone => cases hnone.symm.trans h
    | follow hsome other _ =>
      cases hsome.symm.trans h
      exact other rfl
  | first h other hfollow _ ih =>
    intro hfails
    cases hfails with
    | missing hnone => cases hnone.symm.trans h
    | follow hsome _ all =>
      cases hsome.symm.trans h
      exact ih (all _ (by simp [hfollow]))
  | second h other hfollow _ _ ih =>
    intro hfails
    cases hfails with
    | missing hnone => cases hnone.symm.trans h
    | follow hsome _ all =>
      cases hsome.symm.trans h
      exact ih (all _ (by simp [hfollow]))

/-- How far the end is hangs on the place alone, so no way passes one place twice. -/
theorem Ends.steps_eq (h : Ends p n t slots) (h' : Ends p m u slots') (hmeets : t.Meets u) :
    n = m := by
  induction h generalizing u m with
  | done h =>
    rw [hmeets.1] at h
    cases h' with
    | done => rfl
    | first hsome other => exact absurd (Option.some.inj (hsome.symm.trans h)) other
    | second hsome other => exact absurd (Option.some.inj (hsome.symm.trans h)) other
  | @first n t v step others slots h other hfollow hends ih =>
    rw [hmeets.1] at h
    have hall := hmeets.follow step
    rw [hfollow] at hall
    cases h' with
    | done hdone => exact absurd (Option.some.inj (h.symm.trans hdone)) other
    | first hsome _ hfollow' hends' =>
      cases h.symm.trans hsome
      rw [hfollow'] at hall
      rw [ih hends' (List.forall₂_cons.mp hall).1]
    | second hsome _ hfollow' hfails =>
      cases h.symm.trans hsome
      rw [hfollow'] at hall
      have hmeets' := (List.forall₂_cons.mp hall).1
      exact absurd (hfails.meets ⟨hmeets'.1.symm, hmeets'.2.symm⟩) hends.not_fails
  | @second n t v w step slots h other hfollow hfails hends ih =>
    rw [hmeets.1] at h
    have hall := hmeets.follow step
    rw [hfollow] at hall
    cases h' with
    | done hdone => exact absurd (Option.some.inj (h.symm.trans hdone)) other
    | first hsome _ hfollow' hends' =>
      cases h.symm.trans hsome
      rw [hfollow'] at hall
      exact absurd (hfails.meets (List.forall₂_cons.mp hall).1) hends'.not_fails
    | second hsome _ hfollow' _ hends' =>
      cases h.symm.trans hsome
      rw [hfollow'] at hall
      have hmeets' := (List.forall₂_cons.mp (List.forall₂_cons.mp hall).2).1
      rw [ih hends' hmeets']

end

/-- The place behind `before` and in front of `rest`. -/
def Cursor.after (before rest : List Char) : Cursor := ⟨before.length, before.getLast?, rest⟩

/-- A place of the text. -/
def Cursor.IsIn (text : List Char) (c : Cursor) : Prop :=
  ∃ before, text = before ++ c.rest ∧ c = .after before c.rest

theorem Cursor.isIn_after (before rest : List Char) :
    (after before rest).IsIn (before ++ rest) := ⟨before, rfl, rfl⟩

theorem Cursor.next?_after (before : List Char) (x : Char) (rest : List Char) :
    (after before (x :: rest)).next? = some (x, after (before ++ [x]) rest) := by
  simp [next?, after]

theorem Cursor.IsIn.next {text : List Char} {c c' : Cursor} {x : Char} (h : c.IsIn text)
    (hnext : c.next? = some (x, c')) : c'.IsIn text := by
  obtain ⟨before, htext, hc⟩ := h
  obtain ⟨offset, last, rest⟩ := c
  cases rest with
  | nil => cases hnext
  | cons y rest =>
    rw [hc, next?_after] at hnext
    cases hnext
    exact ⟨before ++ [x], by simpa [after] using htext, rfl⟩

theorem Cursor.IsIn.offset_le {text : List Char} {c : Cursor} (h : c.IsIn text) :
    c.offset ≤ text.length := by
  obtain ⟨before, htext, hc⟩ := h
  rw [hc, htext, List.length_append]
  exact Nat.le_add_right _ _

/-- A place is known by its offset. -/
theorem Cursor.IsIn.ext {text : List Char} {c c' : Cursor} (h : c.IsIn text) (h' : c'.IsIn text)
    (hoffset : c.offset = c'.offset) : c = c' := by
  obtain ⟨before, htext, hc⟩ := h
  obtain ⟨before', htext', hc'⟩ := h'
  have hlength : before.length = before'.length := by
    rw [hc, hc'] at hoffset
    exact hoffset
  obtain ⟨hbefore, hrest⟩ := List.append_inj (htext.symm.trans htext') hlength
  rw [hc, hc', hbefore, hrest]

theorem Thread.isIn_follow {text : List Char} {t : Thread} (h : t.cursor.IsIn text) (step : Step) :
    ∀ u ∈ t.follow step, u.cursor.IsIn text := by
  cases step with
  | take s next =>
    intro u hu
    simp only [follow] at hu
    cases hnext : t.cursor.next? with
    | none =>
      rw [hnext] at hu
      cases hu
    | some xc =>
      rw [hnext] at hu
      dsimp only at hu
      split_ifs at hu
      · rw [List.mem_singleton.mp hu]
        exact h.next hnext
      · cases hu
  | look l next =>
    intro u hu
    simp only [follow] at hu
    split_ifs at hu
    · rw [List.mem_singleton.mp hu]
      exact h
    · cases hu
  | mark slot next =>
    intro u hu
    rw [List.mem_singleton.mp hu]
    exact h
  | fork first second =>
    intro u hu
    rcases List.mem_cons.mp hu with rfl | hu
    · exact h
    · rw [List.mem_singleton.mp hu]
      exact h
  | done =>
    intro u hu
    cases hu

/-- Room for every step of the program at every place of the text. -/
structure Tried.Covers (d : Tried) (p : Program) (text : List Char) : Prop where
  places : d.places = text.length + 1
  size : d.marks.size = p.size * (text.length + 1)

/-- How many steps are left to be tried. -/
def Tried.left (d : Tried) : Nat := d.marks.toList.count false

theorem Tried.covers_none (p : Program) (text : List Char) :
    (none p.size (text.length + 1)).Covers p text := ⟨rfl, by simp [none]⟩

theorem Tried.left_le {d : Tried} {p : Program} {text : List Char} (h : d.Covers p text) :
    d.left ≤ p.size * (text.length + 1) := by
  rw [← h.size, ← Array.length_toList]
  exact List.count_le_length

section

variable {d : Tried} {p : Program} {text : List Char} {t u : Thread}

theorem Tried.Covers.index_lt (h : d.Covers p text) (ht : t.step < p.size)
    (hin : t.cursor.IsIn text) : d.index t < d.marks.size := by
  have hoffset : t.cursor.offset < text.length + 1 := Nat.lt_succ_of_le hin.offset_le
  rw [index, h.places, h.size]
  calc t.step * (text.length + 1) + t.cursor.offset
      < t.step * (text.length + 1) + (text.length + 1) := by omega
    _ = (t.step + 1) * (text.length + 1) := by ring
    _ ≤ p.size * (text.length + 1) := Nat.mul_le_mul_right _ ht

/-- Threads with one mark are at the same step and the same place. -/
theorem Tried.Covers.meets_of_index_eq (h : d.Covers p text) (ht : t.cursor.IsIn text)
    (hu : u.cursor.IsIn text) (hindex : d.index t = d.index u) : t.Meets u := by
  have hoffset : t.cursor.offset < text.length + 1 := Nat.lt_succ_of_le ht.offset_le
  have hoffset' : u.cursor.offset < text.length + 1 := Nat.lt_succ_of_le hu.offset_le
  rw [index, index, h.places, Nat.mul_comm, Nat.mul_comm u.step] at hindex
  have hdiv := congrArg (fun i => i / (text.length + 1)) hindex
  have hmod := congrArg (fun i => i % (text.length + 1)) hindex
  rw [Nat.mul_add_div (by omega), Nat.mul_add_div (by omega), Nat.div_eq_of_lt hoffset,
    Nat.div_eq_of_lt hoffset'] at hdiv
  rw [Nat.mul_add_mod, Nat.mul_add_mod, Nat.mod_eq_of_lt hoffset, Nat.mod_eq_of_lt hoffset'] at hmod
  exact ⟨hdiv, ht.ext hu hmod⟩

theorem Tried.Covers.insert (h : d.Covers p text) (t : Thread) : (d.insert t).Covers p text :=
  ⟨h.places, by rw [Tried.insert, Array.size_setIfInBounds, h.size]⟩

theorem Tried.holds_insert (h : (d.insert t).holds u = true) :
    d.index t = d.index u ∨ d.holds u = true := by
  by_cases hindex : d.index t = d.index u
  · exact .inl hindex
  · refine .inr ?_
    have hsame : (d.insert t).index u = d.index u := rfl
    rw [holds, hsame, Tried.insert] at h
    rw [holds]
    simpa [Array.getD_eq_getD_getElem?, Array.getElem?_setIfInBounds, hindex] using h

theorem Tried.left_insert (h : d.holds t = false) : (d.insert t).left + 1 = d.left := by
  have hlt : d.index t < d.marks.size := by
    by_contra hge
    simp [holds, Array.getD_eq_getD_getElem?, Array.getElem?_eq_none (not_lt.mp hge)] at h
  have hlength : d.index t < d.marks.toList.length := by simpa using hlt
  have hfalse : d.marks.toList[d.index t] = false := by
    simpa [holds, Array.getD_eq_getD_getElem?, hlt] using h
  have hpos : 0 < d.marks.toList.count false :=
    List.count_pos_iff.mpr (hfalse ▸ List.getElem_mem _)
  rw [left, left, Tried.insert, Array.toList_setIfInBounds,
    List.count_set hlength, hfalse]
  simp only [beq_self_eq_true, if_true, Bool.true_beq, Bool.false_eq_true, if_false]
  omega

end

section

variable {p : Program} {text : List Char} {t : Thread} {rest : List Thread} {d : Tried}
  {fuel n : Nat}

theorem Program.run_of_holds (h : d.holds t = true) :
    p.run (fuel + 1) (t :: rest) d = p.run fuel rest d := by
  rw [run, if_pos h]

theorem Program.run_of_missing (h : p[t.step]? = none) :
    p.run (fuel + 1) (t :: rest) d = p.run fuel rest d := by
  rw [run, h]
  simp

theorem Program.run_of_done (h : d.holds t = false) (hdone : p[t.step]? = some .done) :
    p.run (fuel + 1) (t :: rest) d = (some t.slots, d) := by
  rw [run, if_neg (by simp [h]), hdone]

theorem Program.run_of_step (h : d.holds t = false) {step : Step} (hstep : p[t.step]? = some step)
    (other : step ≠ .done) :
    p.run (fuel + 1) (t :: rest) d = p.run fuel (t.follow step ++ rest) (d.insert t) := by
  rw [run, if_neg (by simp [h]), hstep]
  cases step with
  | done => exact absurd rfl other
  | _ => rfl

/-- The search comes back from the threads without a match: it goes on with those behind them, and
all that it has tried in between fails. -/
def Passes (p : Program) (text : List Char) (ts : List Thread) : Prop :=
  ∀ (rest : List Thread) (d : Tried) (fuel : Nat), d.Covers p text →
    2 * d.left + ts.length + rest.length < fuel →
    ∃ (fuel' : Nat) (d' : Tried), p.run fuel (ts ++ rest) d = p.run fuel' rest d' ∧
      2 * d'.left + rest.length < fuel' ∧ d'.Covers p text ∧
      ∀ u : Thread, u.cursor.IsIn text → d'.holds u = true → d.holds u = true ∨ Fails p u

theorem passes_nil (p : Program) (text : List Char) : Passes p text [] := by
  intro rest d fuel hcovers hfuel
  exact ⟨fuel, d, rfl, by simpa using hfuel, hcovers, fun u _ h => .inl h⟩

theorem Passes.cons {ts : List Thread} (h : Passes p text [t]) (hts : Passes p text ts) :
    Passes p text (t :: ts) := by
  intro rest d fuel hcovers hfuel
  rw [List.length_cons] at hfuel
  obtain ⟨fuel₁, d₁, hrun₁, hfuel₁, hcovers₁, hnew₁⟩ := h (ts ++ rest) d fuel hcovers
    (by rw [List.length_append, List.length_singleton]; omega)
  obtain ⟨fuel₂, d₂, hrun₂, hfuel₂, hcovers₂, hnew₂⟩ := hts rest d₁ fuel₁ hcovers₁
    (by rw [List.length_append] at hfuel₁; omega)
  refine ⟨fuel₂, d₂, hrun₁.trans hrun₂, hfuel₂, hcovers₂, fun u hu hheld => ?_⟩
  rcases hnew₂ u hu hheld with hheld | hfails
  · exact hnew₁ u hu hheld
  · exact .inr hfails

theorem passes_of_forall {ts : List Thread} (h : ∀ u ∈ ts, Passes p text [u]) :
    Passes p text ts := by
  induction ts with
  | nil => exact passes_nil p text
  | cons t ts ih =>
    obtain ⟨ht, hts⟩ := List.forall_mem_cons.mp h
    exact ht.cons (ih hts)

/-- A thread that fails by backtracking is passed over by a search that tries no step twice at one
place. -/
theorem Fails.passes (h : Fails p t) (hin : t.cursor.IsIn text) : Passes p text [t] := by
  induction h with
  | missing h =>
    intro rest d fuel hcovers hfuel
    rw [List.length_singleton] at hfuel
    obtain ⟨fuel, rfl⟩ : ∃ k, fuel = k + 1 := ⟨fuel - 1, by omega⟩
    exact ⟨fuel, d, Program.run_of_missing h, by omega, hcovers, fun u _ h => .inl h⟩
  | @follow t step h other hall ih =>
    intro rest d fuel hcovers hfuel
    rw [List.length_singleton] at hfuel
    obtain ⟨fuel, rfl⟩ : ∃ k, fuel = k + 1 := ⟨fuel - 1, by omega⟩
    cases hheld : d.holds t with
    | true =>
      exact ⟨fuel, d, Program.run_of_holds hheld, by omega, hcovers, fun u _ h => .inl h⟩
    | false =>
      have hpasses := passes_of_forall fun u hu => ih u hu (Thread.isIn_follow hin step u hu)
      have hleft := Tried.left_insert hheld
      have hfollow := t.length_follow_le step
      obtain ⟨fuel', d', hrun, hfuel', hcovers', hnew⟩ :=
        hpasses rest (d.insert t) fuel (hcovers.insert t) (by omega)
      refine ⟨fuel', d', (Program.run_of_step hheld h other).trans hrun, hfuel', hcovers',
        fun u hu hu' => ?_⟩
      rcases hnew u hu hu' with hu' | hfails
      · rcases Tried.holds_insert hu' with hindex | hu'
        · exact .inr ((Fails.follow h other hall).meets (hcovers.meets_of_index_eq hin hu hindex))
        · exact .inl hu'
      · exact .inr hfails

/-- Nothing that has been tried has its end within `n` steps. -/
def Tried.IsClear (d : Tried) (p : Program) (text : List Char) (n : Nat) : Prop :=
  ∀ u : Thread, u.cursor.IsIn text → d.holds u = true → ∀ m ≤ n, ∀ slots, ¬ Ends p m u slots

/-- A thread that ends in so many steps has not been tried. -/
theorem Tried.IsClear.holds_eq_false {slots : Slots} (h : d.IsClear p text n)
    (hin : t.cursor.IsIn text) (hends : Ends p n t slots) : d.holds t = false := by
  by_contra hheld
  exact h t hin (by simpa using hheld) n le_rfl slots hends

/-- Going on from a thread keeps clear of it, since its end lies behind those of its followers. -/
theorem Tried.IsClear.insert {slots : Slots} (h : d.IsClear p text (n + 1))
    (hcovers : d.Covers p text) (hin : t.cursor.IsIn text) (hends : Ends p (n + 1) t slots) :
    (d.insert t).IsClear p text n := by
  intro u hu hheld m hm slots' hends'
  rcases Tried.holds_insert hheld with hindex | hheld
  · have hsteps := hends.steps_eq hends' (hcovers.meets_of_index_eq hin hu hindex)
    omega
  · exact h u hu hheld m (hm.trans n.le_succ) slots' hends'

theorem Tried.IsClear.of_new {d' : Tried} (h : d.IsClear p text n)
    (hnew : ∀ u : Thread, u.cursor.IsIn text → d'.holds u = true →
      d.holds u = true ∨ Fails p u) : d'.IsClear p text n := by
  intro u hu hheld m hm slots hends
  rcases hnew u hu hheld with hheld | hfails
  · exact h u hu hheld m hm slots hends
  · exact hends.not_fails hfails

/-- A search that does not try a step twice at one place finds what backtracking finds: the places
that it passes over have failed, or lie behind it on the way it is going. -/
theorem Ends.run {slots : Slots} (h : Ends p n t slots) (hin : t.cursor.IsIn text)
    (hcovers : d.Covers p text) (hclear : d.IsClear p text n)
    (hfuel : 2 * d.left + rest.length + 1 < fuel) :
    (p.run fuel (t :: rest) d).1 = some slots := by
  induction h generalizing d rest fuel with
  | @done t h =>
    have hheld := hclear.holds_eq_false hin (.done h)
    obtain ⟨fuel, rfl⟩ : ∃ k, fuel = k + 1 := ⟨fuel - 1, by omega⟩
    rw [Program.run_of_done hheld h]
  | @first n t u step others slots h other hfollow hends ih =>
    have hwhole : Ends p (n + 1) t slots := .first h other hfollow hends
    have hheld := hclear.holds_eq_false hin hwhole
    obtain ⟨fuel, rfl⟩ : ∃ k, fuel = k + 1 := ⟨fuel - 1, by omega⟩
    have hleft := Tried.left_insert hheld
    have hlength := t.length_follow_le step
    rw [hfollow, List.length_cons] at hlength
    have hu := Thread.isIn_follow hin step u (by simp [hfollow])
    rw [Program.run_of_step hheld h other, hfollow, List.cons_append]
    refine ih hu (hcovers.insert t) (hclear.insert hcovers hin hwhole) ?_
    rw [List.length_append]
    omega
  | @second n t u v step slots h other hfollow hfails hends ih =>
    have hwhole : Ends p (n + 1) t slots := .second h other hfollow hfails hends
    have hheld := hclear.holds_eq_false hin hwhole
    obtain ⟨fuel, rfl⟩ : ∃ k, fuel = k + 1 := ⟨fuel - 1, by omega⟩
    have hleft := Tried.left_insert hheld
    have hall := Thread.isIn_follow hin step
    rw [hfollow] at hall
    obtain ⟨hv, hu⟩ := List.forall_mem_cons.mp hall
    -- the first of the two followers fails, so it leaves only marks of failure behind
    obtain ⟨fuel', d', hrun, hfuel', hcovers', hnew⟩ :=
      hfails.passes hv (u :: rest) (d.insert t) fuel (hcovers.insert t)
        (by simp only [List.length_cons, List.length_nil]; omega)
    rw [Program.run_of_step hheld h other, hfollow]
    change (p.run fuel ([v] ++ u :: rest) (d.insert t)).1 = some slots
    rw [hrun]
    refine ih (hu u List.mem_cons_self) hcovers'
      ((hclear.insert hcovers hin hwhole).of_new hnew) ?_
    rw [List.length_cons] at hfuel'
    omega

end

section

variable {p : Program} {start : Nat} {text : List Char} {d : Tried}

/-- What has been tried so far fails. -/
def Tried.AllFail (d : Tried) (p : Program) (text : List Char) : Prop :=
  ∀ u : Thread, u.cursor.IsIn text → d.holds u = true → Fails p u

theorem Tried.AllFail.isClear (h : d.AllFail p text) (n : Nat) : d.IsClear p text n :=
  fun u hu hheld _ _ _ hends => hends.not_fails (h u hu hheld)

theorem Tried.allFail_none (p : Program) (text : List Char) :
    (none p.size (text.length + 1)).AllFail p text := by
  intro u hu hheld
  refine .missing (Array.getElem?_eq_none (not_lt.mp fun hlt => ?_))
  have hindex := (covers_none p text).index_lt hlt hu
  have hsize : (none p.size (text.length + 1)).index u < p.size * (text.length + 1) := by
    rwa [(covers_none p text).size] at hindex
  have hfresh : (none p.size (text.length + 1)).holds u = false := by
    simp only [holds, none] at hsize ⊢
    simp [Array.getD_eq_getD_getElem?, hsize]
  rw [hfresh] at hheld
  cases hheld

theorem Program.run_of_fails {c : Cursor} (h : Fails p ⟨start, c, []⟩) (hin : c.IsIn text)
    (hcovers : d.Covers p text) (hall : d.AllFail p text) :
    ∃ d', p.run (p.fuel (text.length + 1)) [⟨start, c, []⟩] d = (none, d') ∧ d'.Covers p text ∧
      d'.AllFail p text := by
  have hleft := Tried.left_le hcovers
  obtain ⟨fuel', d', hrun, hfuel', hcovers', hnew⟩ :=
    h.passes hin [] d (p.fuel (text.length + 1)) hcovers (by
      rw [Program.fuel, List.length_singleton, List.length_nil, Nat.mul_assoc]
      omega)
  obtain ⟨fuel', rfl⟩ : ∃ k, fuel' = k + 1 := ⟨fuel' - 1, by omega⟩
  refine ⟨d', hrun, hcovers', fun u hu hheld => ?_⟩
  rcases hnew u hu hheld with hheld | hfails
  · exact hall u hu hheld
  · exact hfails

theorem Program.run_of_ends {c : Cursor} {n : Nat} {slots : Slots}
    (h : Ends p n ⟨start, c, []⟩ slots) (hin : c.IsIn text) (hcovers : d.Covers p text)
    (hall : d.AllFail p text) :
    ∃ d', p.run (p.fuel (text.length + 1)) [⟨start, c, []⟩] d = (some slots, d') := by
  have hleft := Tried.left_le hcovers
  have hfuel : 2 * d.left + ([] : List Thread).length + 1 < p.fuel (text.length + 1) := by
    rw [Program.fuel, List.length_nil, Nat.mul_assoc]
    omega
  exact ⟨_, Prod.ext (h.run hin hcovers (hall.isClear n) hfuel) rfl⟩

/-- When every place fails there is no match. -/
theorem Program.searchFrom_of_fails {before rest : List Char}
    (h : ∀ more rest', rest = more ++ rest' → Fails p ⟨start, .after (before ++ more) rest', []⟩)
    (hcovers : d.Covers p (before ++ rest)) (hall : d.AllFail p (before ++ rest)) :
    p.searchFrom start ((before ++ rest).length + 1) rest (.after before rest) d = none := by
  induction rest generalizing before d with
  | nil =>
    have hfails : Fails p ⟨start, .after before [], []⟩ := by simpa using h [] [] rfl
    obtain ⟨d', hrun, -⟩ := run_of_fails hfails (Cursor.isIn_after before []) hcovers hall
    rw [searchFrom, hrun]
  | cons x rest ih =>
    have hfails : Fails p ⟨start, .after before (x :: rest), []⟩ := by
      simpa using h [] (x :: rest) rfl
    obtain ⟨d', hrun, hcovers', hall'⟩ :=
      run_of_fails hfails (Cursor.isIn_after before (x :: rest)) hcovers hall
    have hnext : (⟨(Cursor.after before (x :: rest)).offset + 1, some x, rest⟩ : Cursor) =
        .after (before ++ [x]) rest := by simp [Cursor.after]
    have happend : before ++ x :: rest = before ++ [x] ++ rest := by simp
    rw [searchFrom, hrun]
    dsimp only
    rw [hnext]
    rw [happend] at hcovers' hall' ⊢
    refine ih (fun more rest' hrest => ?_) hcovers' hall'
    rw [List.append_assoc]
    exact h (x :: more) rest' (by rw [hrest, List.cons_append])

/-- The first place that does not fail is where the match begins. -/
theorem Program.searchFrom_of_ends {before skipped rest : List Char} {n : Nat} {slots : Slots}
    (h : ∀ more x rest', skipped = more ++ x :: rest' →
      Fails p ⟨start, .after (before ++ more) (x :: rest' ++ rest), []⟩)
    (hends : Ends p n ⟨start, .after (before ++ skipped) rest, []⟩ slots)
    (hcovers : d.Covers p (before ++ (skipped ++ rest)))
    (hall : d.AllFail p (before ++ (skipped ++ rest))) :
    p.searchFrom start ((before ++ (skipped ++ rest)).length + 1) (skipped ++ rest)
      (.after before (skipped ++ rest)) d = some slots := by
  induction skipped generalizing before d with
  | nil =>
    rw [List.append_nil] at hends
    obtain ⟨d', hrun⟩ := run_of_ends hends (Cursor.isIn_after before rest) hcovers hall
    rw [List.nil_append, searchFrom.eq_def]
    dsimp only
    rw [hrun]
  | cons x skipped ih =>
    have hfails : Fails p ⟨start, .after before (x :: skipped ++ rest), []⟩ := by
      simpa using h [] x skipped rfl
    obtain ⟨d', hrun, hcovers', hall'⟩ :=
      run_of_fails hfails (Cursor.isIn_after before _) hcovers hall
    have hnext : (⟨(Cursor.after before (x :: (skipped ++ rest))).offset + 1, some x,
        skipped ++ rest⟩ : Cursor) = .after (before ++ [x]) (skipped ++ rest) := by
      simp [Cursor.after]
    have happend : before ++ x :: (skipped ++ rest) = before ++ [x] ++ (skipped ++ rest) := by simp
    rw [List.cons_append] at hrun hcovers' hall' ⊢
    rw [searchFrom, hrun]
    dsimp only
    rw [hnext]
    rw [happend] at hcovers' hall' ⊢
    refine ih (fun more y rest' hskipped => ?_) ?_ hcovers' hall'
    · rw [List.append_assoc]
      exact h (x :: more) y rest' (by rw [hskipped, List.cons_append])
    · rwa [List.append_assoc]

end

/-- A text that fails from every place has no match. -/
theorem slots?_of_fails {r : Regex} {text : List Char} {p : Program} {start : Nat}
    (hcompile : Program.compile r #[.done] 0 = (p, start))
    (h : ∀ before rest, text = before ++ rest → Fails p ⟨start, .after before rest, []⟩) :
    r.slots? text = none := by
  have hsearch : p.searchFrom start (([] ++ text).length + 1) text (.after [] text)
      (.none p.size (text.length + 1)) = none :=
    Program.searchFrom_of_fails h (Tried.covers_none p text) (Tried.allFail_none p text)
  rw [slots?, hcompile]
  exact hsearch

/-- The match is the one from the first place that does not fail. -/
theorem slots?_of_ends {r : Regex} {before rest : List Char} {p : Program} {start n : Nat}
    {slots : Slots} (hcompile : Program.compile r #[.done] 0 = (p, start))
    (h : ∀ more x rest', before = more ++ x :: rest' →
      Fails p ⟨start, .after more (x :: rest' ++ rest), []⟩)
    (hends : Ends p n ⟨start, .after before rest, []⟩ slots) :
    r.slots? (before ++ rest) = some slots := by
  have hsearch : p.searchFrom start (([] ++ (before ++ rest)).length + 1) (before ++ rest)
      (.after [] (before ++ rest)) (.none p.size ((before ++ rest).length + 1)) = some slots :=
    Program.searchFrom_of_ends h hends (Tried.covers_none p _) (Tried.allFail_none p _)
  rw [slots?, hcompile]
  exact hsearch

end ClaimMapping.Regex
