import ClaimMapping.Proofs.Xml.Event

namespace ClaimMapping.Xml

/-- The text ends with a piece of markup and is read without a defect, from some open elements to
others. -/
inductive Reads : List Open → List Char → List Event → List Open → Prop
  | nil (opened : List Open) : Reads opened [] [] opened
  | piece {opened opened' opened'' : List Open} {text raw source : List Char}
      {es more events : List Event} {m : Markup} (text_plain : '<' ∉ text)
      (text_events : textEvents text = .ok es) (writes : Writes raw m)
      (markup_events : m.events opened = .ok (more, opened'))
      (rest : Reads opened' source events opened'') :
      Reads opened (text ++ '<' :: (raw ++ source)) (es ++ (more ++ events)) opened''

/-- Behind whole pieces a document is read as if it began there, with the elements open that were
begun and not ended. -/
theorem Reads.eventsFrom_append {opened opened' : List Open} {source : List Char}
    {es : List Event} (h : Reads opened source es opened') (tail : List Char) :
    eventsFrom opened (source ++ tail) = Stream.append es (eventsFrom opened' tail) := by
  induction h with
  | nil => rfl
  | @piece opened opened' _ text raw source es more events m hplain hes hwrites hmore _ ih =>
    have hsplit : text ++ '<' :: (raw ++ source) ++ tail =
        text ++ '<' :: (raw ++ (source ++ tail)) := by simp
    rw [hsplit, eventsFrom_markup hplain, afterText, hes, afterMarkup, hwrites]
    dsimp only
    rw [hmore]
    dsimp only
    rw [ih, Stream.append_append, Stream.append_append]

/-- Markup with no text in front. -/
theorem Reads.markup {opened opened' opened'' : List Open} {raw source : List Char}
    {more events : List Event} {m : Markup} (htake : takeMarkup raw = .ok (m, []))
    (hmore : m.events opened = .ok (more, opened')) (h : Reads opened' source events opened'') :
    Reads opened ('<' :: (raw ++ source)) (more ++ events) opened'' := by
  obtain ⟨raw', hraw, hwrites⟩ := exists_writes_of_takeMarkup htake
  rw [List.append_nil] at hraw
  subst hraw
  have hpiece : Reads opened ([] ++ '<' :: (raw ++ source)) ([] ++ (more ++ events)) opened'' :=
    .piece List.not_mem_nil rfl hwrites hmore h
  exact hpiece

theorem Reads.ne_nil {opened opened' : List Open} {source : List Char} {es : List Event}
    (h : Reads opened source es opened') (hopen : opened' ≠ opened) : source ≠ [] := by
  cases h with
  | nil => exact absurd rfl hopen
  | piece => simp

theorem skipMark_cons_of_ne {c : Char} (h : c ≠ '\uFEFF') (text : List Char) :
    skipMark (c :: text) = c :: text := by
  unfold skipMark
  split
  case h_1 he => exact absurd (List.cons.inj he).1 h
  case h_2 => rfl

/-- A byte order mark can only stand at the very front. -/
theorem skipMark_append {source : List Char} (h : source ≠ []) (tail : List Char) :
    skipMark (source ++ tail) = skipMark source ++ tail := by
  obtain ⟨c, source, rfl⟩ := List.exists_cons_of_ne_nil h
  by_cases hc : c = '\uFEFF'
  · subst hc
    rfl
  · rw [List.cons_append, skipMark_cons_of_ne hc, skipMark_cons_of_ne hc, List.cons_append]

/-- Character data at a place, and the markup behind it. -/
theorem exists_text_append (back : List Char) :
    ∃ right after, back = right ++ after ∧ back.takeWhile (· != '<') = right ∧ '<' ∉ right ∧
      (after = [] ∨ ∃ tail, after = '<' :: tail) := by
  refine ⟨back.takeWhile (· != '<'), back.dropWhile (· != '<'),
    List.takeWhile_append_dropWhile.symm, rfl, fun hmem => ?_, ?_⟩
  · simpa using List.mem_takeWhile_imp hmem
  · cases hrest : back.dropWhile (· != '<') with
    | nil => exact .inl rfl
    | cons c tail =>
      have hhead := List.head_dropWhile_not (· != '<') (l := back) (by simp [hrest])
      simp only [hrest, List.head_cons, bne_eq_false_iff_eq] at hhead
      exact .inr ⟨tail, by rw [hhead]⟩

/-- Inside a piece of markup, behind whole pieces and a text. -/
def InMarkup (opened : List Open) (front back : List Char) : Prop :=
  ∃ source text raw raw' m es opened', front = source ++ (text ++ '<' :: raw) ∧
    Reads opened source es opened' ∧ '<' ∉ text ∧ raw' ≠ [] ∧ raw' <+: back ∧
      Writes (raw ++ raw') m

/-- Behind whole pieces and a text. -/
def InText (opened : List Open) (front : List Char) : Prop :=
  ∃ source left es opened', front = source ++ left ∧ Reads opened source es opened' ∧ '<' ∉ left

/-- The first piece of markup of a document without a defect is whole, and what follows it has no
defect either. -/
theorem eventsFrom_markup_of_defect {opened : List Open} {text rest : List Char} (h : '<' ∉ text)
    (hd : (eventsFrom opened (text ++ '<' :: rest)).defect = none) :
    ∃ es m raw rest' more opened', textEvents text = .ok es ∧ rest = raw ++ rest' ∧ Writes raw m ∧
      m.events opened = .ok (more, opened') ∧ (eventsFrom opened' rest').defect = none := by
  rw [eventsFrom_markup h, afterText] at hd
  split at hd
  case h_1 => cases hd
  case h_2 es hes =>
    rw [afterMarkup] at hd
    split at hd
    case h_1 => cases hd
    case h_2 m rest' htake =>
      obtain ⟨raw, hrest, hwrites⟩ := exists_writes_of_takeMarkup htake
      split at hd
      case h_1 => cases hd
      case h_2 more opened' hmore =>
        exact ⟨es, m, raw, rest', more, opened', hes, hrest, hwrites, hmore, hd⟩

theorem InText.of_not_mem {opened : List Open} {front : List Char} (h : '<' ∉ front) :
    InText opened front := ⟨[], front, [], opened, rfl, .nil opened, h⟩

/-- Every place of a document without a defect is in a text or in markup. -/
theorem inText_or_inMarkup {opened : List Open} {front back : List Char}
    (h : (eventsFrom opened (front ++ back)).defect = none) :
    InText opened front ∨ InMarkup opened front back := by
  induction hn : (front ++ back).length using Nat.strong_induction_on
    generalizing opened front back with
  | _ n ih =>
    by_cases hmem : '<' ∈ front
    case neg => exact .inl (.of_not_mem hmem)
    obtain ⟨text, rest, rfl, htext⟩ := List.eq_append_cons_of_mem hmem
    have hsplit : text ++ '<' :: rest ++ back = text ++ '<' :: (rest ++ back) := by simp
    rw [hsplit] at h hn
    obtain ⟨es, m, raw, rest', more, opened', hes, hraw, hwrites, hmore, hd⟩ :=
      eventsFrom_markup_of_defect htext h
    -- The place is behind the first piece, or inside of it unless nothing of the piece is left.
    obtain ⟨behind, rfl, rfl⟩ | ⟨raw', rfl, rfl⟩ := List.append_eq_append_iff.mp hraw.symm
    · have hlength : (behind ++ back).length < n := by
        simp only [List.length_append, List.length_cons] at hn ⊢
        omega
      have hfront (source more' : List Char) : text ++ '<' :: (raw ++ (source ++ more')) =
          text ++ '<' :: (raw ++ source) ++ more' := by simp
      obtain ⟨source, left, events, last, rfl, hreads, hleft⟩ |
        ⟨source, inner, raw', raw'', m', events, last, rfl, hreads, hinner⟩ := ih _ hlength hd rfl
      · exact .inl ⟨_, left, _, last, hfront source left,
          hreads.piece htext hes hwrites hmore, hleft⟩
      · exact .inr ⟨_, inner, raw', raw'', m', _, last, hfront source _,
          hreads.piece htext hes hwrites hmore, hinner⟩
    · cases raw' with
      | nil =>
        rw [List.append_nil] at hwrites
        refine .inl ⟨_, [], _, opened', ?_, (Reads.nil opened').piece htext hes hwrites hmore, ?_⟩
        · simp
        · exact List.not_mem_nil
      | cons c raw' =>
        exact .inr ⟨[], text, rest, c :: raw', m, [], opened, rfl, .nil opened, htext,
          List.cons_ne_nil c raw', List.prefix_append _ rest', hwrites⟩

/-- A byte order mark in front of a place in a text belongs to the pieces behind which it is. -/
theorem InText.exists_source {front : List Char} (h : InText [] (skipMark front)) :
    ∃ source left es opened, front = source ++ left ∧ Reads [] (skipMark source) es opened ∧
      '<' ∉ left := by
  obtain ⟨source, left, es, opened, hfront, hreads, hleft⟩ := h
  have hsource : ∃ source', front = source' ++ left ∧ skipMark source' = source := by
    cases front with
    | nil => exact ⟨source, hfront, by rw [(List.append_eq_nil_iff.mp hfront.symm).1]; rfl⟩
    | cons c front =>
      by_cases hc : c = '\uFEFF'
      · subst hc
        exact ⟨'\uFEFF' :: source, congrArg ('\uFEFF' :: ·) hfront, rfl⟩
      · rw [skipMark_cons_of_ne hc] at hfront
        refine ⟨source, hfront, ?_⟩
        cases source with
        | nil => rfl
        | cons d source =>
          rw [← (List.cons.inj hfront).1]
          exact skipMark_cons_of_ne hc source
  obtain ⟨source', hfront', rfl⟩ := hsource
  exact ⟨source', left, es, opened, hfront', hreads, hleft⟩

end ClaimMapping.Xml
