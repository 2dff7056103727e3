import ClaimMapping.Proofs.Regex.Backtracking
import Mathlib

namespace ClaimMapping.Regex

/-- A character that stands for itself where it is written, and does not repeat what is before. -/
def IsPlain (c : Char) : Prop :=
  c ∉ ['\\', '.', '+', '*', '?', '(', ')', '|', '[', '\x7b', '\x7d', '^', '$']

instance (c : Char) : Decidable (IsPlain c) := inferInstanceAs (Decidable (c ∉ _))

/-- An item in front of others, as sequences are read. -/
def join (item : Regex) : Regex → Regex
  | .empty => item
  | items => .seq item items

/-- Characters one after the other, in front of `tail`. -/
def literals (text : List Char) (tail : Regex) : Regex :=
  text.foldr (fun c => join (.set (.single c))) tail

/-- Every character but the line feed. -/
def anyChar : Regex := .set (.complement (.single '\n'))

/-- The group that takes as many characters as it can. -/
def anyGroup : Regex := .group 1 (.repeat 0 none true anyChar)

/-- Where an item that is not repeated ends. -/
def IsItemEnd (rest : List Char) : Prop := ∀ c ∈ rest.head?, c ∉ ['*', '+', '?', '\x7b']

theorem isItemEnd_cons {c : Char} {rest : List Char} (h : c ∉ ['*', '+', '?', '\x7b']) :
    IsItemEnd (c :: rest) := by
  intro d hd
  cases hd
  exact h

theorem IsPlain.isItemEnd {c : Char} (h : IsPlain c) (rest : List Char) :
    IsItemEnd (c :: rest) := by
  refine isItemEnd_cons fun hc => h ?_
  fin_cases hc <;> decide

theorem isItemEnd_append {text rest : List Char} (htext : ∀ c ∈ text, IsPlain c)
    (hrest : IsItemEnd rest) : IsItemEnd (text ++ rest) := by
  cases text with
  | nil => exact hrest
  | cons c text => exact (htext c List.mem_cons_self).isItemEnd _

/-- The next item of a text that is written with the usual switches. -/
def Place.plain (rest : List Char) (groups : Nat) : Place := ⟨rest, groups, [], {}⟩

@[simp] theorem skip_plain (rest : List Char) : Flags.skip {} rest = rest := rfl

theorem takeRepeats?_of_isItemEnd {rest : List Char} (h : IsItemEnd rest) (fuel : Nat)
    (item : Regex) : takeRepeats? {} (fuel + 1) item rest = some (item, rest) := by
  rw [takeRepeats?, skip_plain]
  cases rest with
  | nil => rfl
  | cons c rest =>
    have hc := h c rfl
    simp only [List.mem_cons, List.not_mem_nil, or_false, not_or] at hc
    obtain ⟨hstar, hplus, hmark, hbrace⟩ := hc
    split <;> simp_all

theorem takeRest?_of_isItemEnd {rest : List Char} (h : IsItemEnd rest) (fuel groups : Nat)
    (item : Regex) :
    takeRest? (fuel + 1) (.plain rest groups) item =
      (takeSequence? fuel (.plain rest groups)).map fun (items, p) => (join item items, p) := by
  simp only [takeRest?, Place.plain, takeRepeats?_of_isItemEnd h, Place.at, Option.bind_eq_bind,
    Option.bind_some, Option.map_eq_bind]
  congr 1
  funext ⟨items, p⟩
  cases items <;> rfl

theorem takeSimple?_plain {c : Char} (h : IsPlain c) (rest : List Char) :
    takeSimple? {} (c :: rest) = some (.set (.single c), rest) := by
  simp only [IsPlain, List.mem_cons, List.not_mem_nil, or_false, not_or] at h
  unfold takeSimple?
  split <;> simp_all [Flags.literal, Flags.fold]

theorem takeSequence?_plain {c : Char} (h : IsPlain c) {rest : List Char} (hrest : IsItemEnd rest)
    (fuel groups : Nat) :
    takeSequence? (fuel + 2) (.plain (c :: rest) groups) =
      (takeSequence? fuel (.plain rest groups)).map fun (items, p) =>
        (join (.set (.single c)) items, p) := by
  have hc := h
  simp only [IsPlain, List.mem_cons, List.not_mem_nil, or_false, not_or] at hc
  rw [← takeRest?_of_isItemEnd hrest]
  rw [takeSequence?]
  simp only [Place.plain, skip_plain]
  split
  · simp_all
  · simp_all
  · simp_all
  · simp_all
  · rw [takeSimple?_plain h]
    rfl

/-- A plain text is read as its characters one after the other. -/
theorem takeSequence?_literals {text rest : List Char} (htext : ∀ c ∈ text, IsPlain c)
    (hrest : IsItemEnd rest) (fuel groups : Nat) :
    takeSequence? (fuel + 2 * text.length) (.plain (text ++ rest) groups) =
      (takeSequence? fuel (.plain rest groups)).map fun (items, p) => (literals text items, p) := by
  induction text with
  | nil => simp [literals]
  | cons c text ih =>
    obtain ⟨hc, htext⟩ := List.forall_mem_cons.mp htext
    have hfuel : fuel + 2 * (c :: text).length = fuel + 2 * text.length + 2 := by
      rw [List.length_cons]
      omega
    rw [hfuel, List.cons_append, takeSequence?_plain hc (isItemEnd_append htext hrest),
      ih htext, Option.map_map]
    rfl

/-- The inside of the group, up to its parenthesis. -/
theorem takeGroup?_anyText (fuel groups : Nat) (rest : List Char) :
    takeGroup? (fuel + 5) (.plain ('.' :: '*' :: ')' :: rest) groups) =
      some (.repeat 0 none true anyChar, .plain rest groups) := by
  have hseq : takeSequence? (fuel + 3) (.plain ('.' :: '*' :: ')' :: rest) groups) =
      some (.repeat 0 none true anyChar, .plain (')' :: rest) groups) := rfl
  rw [takeGroup?, takeAlternatives?, hseq]
  rfl

theorem takeSequence?_anyGroup {rest : List Char} (h : IsItemEnd rest) (fuel : Nat) :
    takeSequence? (fuel + 6) (.plain ('(' :: '.' :: '*' :: ')' :: rest) 0) =
      (takeSequence? (fuel + 4) (.plain rest 1)).map fun (items, p) =>
        (join anyGroup items, p) := by
  rw [← takeRest?_of_isItemEnd h, takeSequence?]
  change (takeGroup? (fuel + 5) (.plain ('.' :: '*' :: ')' :: rest) 1)).bind (fun (body, inner) =>
    takeRest? (fuel + 5) { inner with flags := {} } (.group 1 body)) = _
  rw [takeGroup?_anyText]
  rfl

/-- What is read of two literal texts around the group. -/
def around (front back : List Char) : Regex :=
  literals front (join anyGroup (literals back .empty))

theorem takeSequence?_around {front back : List Char} (hfront : ∀ c ∈ front, IsPlain c)
    (hback : ∀ c ∈ back, IsPlain c) (fuel : Nat) :
    takeSequence? (fuel + 2 * back.length + 6 + 2 * front.length)
      (.plain (front ++ '(' :: '.' :: '*' :: ')' :: back) 0) =
      some (around front back, .plain [] 1) := by
  have hnil : IsItemEnd [] := by simp [IsItemEnd]
  have hend : IsItemEnd back := by simpa using isItemEnd_append hback hnil
  have htail : takeSequence? (fuel + 4 + 2 * back.length) (.plain back 1) =
      some (literals back .empty, .plain [] 1) := by
    have hread := takeSequence?_literals hback hnil (fuel + 4) 1
    rw [List.append_nil] at hread
    rw [hread, takeSequence?]
    rfl
  rw [takeSequence?_literals hfront (isItemEnd_cons (by decide)), takeSequence?_anyGroup hend,
    Nat.add_right_comm, htail]
  rfl

/-- Two plain texts around the group are read as what they write, if that fits. -/
theorem read?_around {front back : List Char} (hfront : ∀ c ∈ front, IsPlain c)
    (hback : ∀ c ∈ back, IsPlain c) (fits : Regex → Bool) :
    read? fits (front ++ '(' :: '.' :: '*' :: ')' :: back) =
      if fits (around front back) then some (around front back) else none := by
  have hfuel : 4 * (front ++ '(' :: '.' :: '*' :: ')' :: back).length + 4 =
      2 * front.length + 2 * back.length + 13 + 2 * back.length + 6 + 2 * front.length + 1 := by
    simp only [List.length_append, List.length_cons]
    omega
  have hread : takeAlternatives? (4 * (front ++ '(' :: '.' :: '*' :: ')' :: back).length + 4)
      (.plain (front ++ '(' :: '.' :: '*' :: ')' :: back) 0) =
      some (around front back, .plain [] 1) := by
    rw [hfuel, takeAlternatives?, takeSequence?_around hfront hback]
    rfl
  change (takeAlternatives? _ (.plain _ 0)).bind _ = _
  rw [hread, Option.bind_some]
  simp [Place.plain]

/-- The steps that read a text, from one step to another. -/
def Program.Reads (p : Program) : Nat → List Char → Nat → Prop
  | first, [], last => first = last
  | first, c :: text, last => ∃ next, p[first]? = some (.take (.single c) next) ∧
      p.Reads next text last

/-- All the steps are kept. -/
def Program.Extends (p q : Program) : Prop :=
  ∀ (i : Nat) (step : Step), q[i]? = some step → p[i]? = some step

theorem Program.Extends.refl (p : Program) : p.Extends p := fun _ _ h => h

theorem Program.Extends.trans {p q r : Program} (h : p.Extends q) (h' : q.Extends r) :
    p.Extends r := fun i step hstep => h i step (h' i step hstep)

theorem Program.extends_append (p q : Program) : Program.Extends (p ++ q) p := by
  intro i step h
  obtain ⟨hi, -⟩ := Array.getElem?_eq_some_iff.mp h
  rw [Array.getElem?_append_left hi, h]

theorem Program.extends_push (p : Program) (step : Step) : Program.Extends (p.push step) p := by
  rw [Array.push_eq_append]
  exact extends_append p #[step]

theorem Program.Reads.mono {p q : Program} (h : p.Extends q) {text : List Char} {first last : Nat}
    (hreads : q.Reads first text last) : p.Reads first text last := by
  induction text generalizing first with
  | nil => exact hreads
  | cons c text ih =>
    obtain ⟨next, hstep, hreads⟩ := hreads
    exact ⟨next, h _ _ hstep, ih hreads⟩

theorem Program.compile_join (item items : Regex) (p : Program) (next : Nat) :
    compile (join item items) p next = compile (.seq item items) p next := by
  cases items <;> rfl

/-- The program of a text reads it and goes on with what is behind it. -/
theorem Program.compile_literals (text : List Char) (tail : Regex) (p : Program) (next : Nat) :
    (compile (literals text tail) p next).1.Extends (compile tail p next).1 ∧
      (compile (literals text tail) p next).1.Reads (compile (literals text tail) p next).2 text
        (compile tail p next).2 := by
  induction text with
  | nil => exact ⟨.refl _, rfl⟩
  | cons c text ih =>
    obtain ⟨hextends, hreads⟩ := ih
    have hcompile : compile (literals (c :: text) tail) p next =
        Program.add (compile (literals text tail) p next).1
          (.take (.single c) (compile (literals text tail) p next).2) :=
      compile_join (.set (.single c)) (literals text tail) p next
    have hpush := extends_push (compile (literals text tail) p next).1
      (.take (.single c) (compile (literals text tail) p next).2)
    rw [hcompile]
    exact ⟨hpush.trans hextends, _, Array.getElem?_push_size, hreads.mono hpush⟩

/-- The places of the steps of two texts around the group, in front of the end. -/
inductive Program.Captures (p : Program) (start : Nat) (front back : List Char) : Prop where
  | intro (opening loop body closing tail finish : Nat)
      (hfront : p.Reads start front opening)
      (hopening : p[opening]? = some (.mark 2 loop))
      (hloop : p[loop]? = some (.fork body closing))
      (hbody : p[body]? = some (.take (.complement (.single '\n')) loop))
      (hclosing : p[closing]? = some (.mark 3 tail))
      (hback : p.Reads tail back finish)
      (hfinish : p[finish]? = some .done)

/-- The steps of the group behind `size` others. -/
def Program.anyGroupSteps (size next : Nat) : Program :=
  #[.mark 3 next, .fork (size + 2) size, .take (.complement (.single '\n')) (size + 1),
    .mark 2 (size + 1)]

theorem Program.compile_anyGroup (p : Program) (next : Nat) :
    compile anyGroup p next = (p ++ anyGroupSteps p.size next, p.size + 3) := by
  simp only [compile, anyGroup, anyChar, Program.add, canBeEmpty, choice, Array.size_push]
  refine Prod.ext (Array.toList_inj.mp ?_) ?_
  · simp [anyGroupSteps]
  · simp

/-- The program of two texts around the group has all its steps in their places. -/
theorem Program.captures_around (front back : List Char) :
    (compile (around front back) #[.done] 0).1.Captures (compile (around front back) #[.done] 0).2
      front back := by
  obtain ⟨hdone, hback⟩ := compile_literals back .empty #[.done] 0
  obtain ⟨hextends, hfront⟩ :=
    compile_literals front (join anyGroup (literals back .empty)) #[.done] 0
  change Extends _ #[.done] at hdone
  change Reads _ _ back 0 at hback
  rw [compile_join, compile] at hextends hfront
  dsimp only at hextends hfront
  rw [compile_anyGroup] at hextends hfront
  generalize (compile (literals back .empty) #[.done] 0).1 = p at *
  generalize (compile (literals back .empty) #[.done] 0).2 = tail at *
  have hp : Extends _ p := hextends.trans (extends_append p (anyGroupSteps p.size tail))
  have hstep (i : Nat) (step : Step) (h : (anyGroupSteps p.size tail)[i]? = some step) :
      (compile (around front back) #[.done] 0).1[p.size + i]? = some step := by
    refine hextends _ _ ?_
    rw [Array.getElem?_append_right (by omega), Nat.add_sub_cancel_left, h]
  exact .intro (p.size + 3) (p.size + 1) (p.size + 2) p.size tail 0 hfront (hstep 3 _ rfl)
    (hstep 1 _ rfl) (hstep 2 _ rfl) (hstep 0 _ rfl) (hback.mono hp) (hp.trans hdone 0 .done rfl)

end ClaimMapping.Regex
