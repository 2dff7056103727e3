import ClaimMapping.Proofs.Saml.Comment

namespace ClaimMapping.Xml

/-- An opening tag, a closing one or an empty element. -/
def Markup.isTag : Markup → Bool
  | .tag _ | .closing _ => true
  | _ => false

/-- White space only. -/
def Blank (text : List Char) : Prop := ∀ c ∈ text, isSpace c = true

instance (text : List Char) : Decidable (Blank text) :=
  decidable_of_iff (text.all isSpace = true) List.all_eq_true

/-- The second text is the first with white space put in right behind tags and right in front of
them; the flag says whether a tag has just ended. -/
inductive Respaced : Bool → List Char → List Char → Prop
  /-- The text up to the next piece of markup, and that piece. -/
  | piece {afterTag : Bool} {before text after raw rest rest' : List Char} {m : Markup}
      (plain : '<' ∉ text) (recognised : takeMarkup (raw ++ rest) = .ok (m, rest))
      (before_blank : Blank before) (behind_tag : before = [] ∨ afterTag = true)
      (after_blank : Blank after) (at_tag : after = [] ∨ m.isTag = true)
      (rest_respaced : Respaced m.isTag rest rest') :
      Respaced afterTag (text ++ '<' :: (raw ++ rest))
        (before ++ (text ++ (after ++ '<' :: (raw ++ rest'))))
  | rest {afterTag : Bool} {before : List Char} (before_blank : Blank before)
      (behind_tag : before = [] ∨ afterTag = true) (text : List Char) :
      Respaced afterTag text (before ++ text)

theorem Blank.nil : Blank [] := fun _ h => nomatch h

theorem Respaced.refl (afterTag : Bool) (text : List Char) : Respaced afterTag text text :=
  Respaced.rest Blank.nil (.inl rfl) text

theorem Blank.plain {text : List Char} (h : Blank text) : '<' ∉ text := by
  intro hmem
  have := h '<' hmem
  revert this
  decide

/-- White space at the ends of a text is trimmed away. -/
theorem textEvents_blank {before after : List Char} (hbefore : Blank before) (hafter : Blank after)
    (text : List Char) : textEvents (before ++ (text ++ after)) = textEvents text := by
  have htrim : Text.trimBy isSpace (before ++ (text ++ after)) = Text.trimBy isSpace text := by
    rw [Text.trimBy_append (.inl hbefore), Text.trimBy_append (.inr (.inl hafter)),
      Text.trimBy_of_all hbefore, Text.trimBy_of_all hafter, List.nil_append, List.append_nil]
  rw [textEvents, textEvents, htrim]

theorem afterText_blank {before after : List Char} (hbefore : Blank before) (hafter : Blank after)
    (text : List Char) (next : Stream) :
    afterText (before ++ (text ++ after)) next = afterText text next := by
  rw [afterText, afterText, textEvents_blank hbefore hafter]

theorem eventsFrom_blank {before : List Char} (h : Blank before) (opened : List Open)
    (back : List Char) : eventsFrom opened (before ++ back) = eventsFrom opened back := by
  obtain ⟨text, after, rfl, -, htext, hafter⟩ := exists_text_append back
  have hplain : '<' ∉ before ++ text := by simp [h.plain, htext]
  have hblank := afterText_blank h Blank.nil text
  rw [List.append_nil] at hblank
  rw [← List.append_assoc, eventsFrom_append hplain hafter, eventsFrom_append htext hafter, hblank]

/-- A piece of markup is recognised by its own characters. -/
theorem takeMarkup_append {raw rest : List Char} {m : Markup}
    (h : takeMarkup (raw ++ rest) = .ok (m, rest)) (rest' : List Char) :
    takeMarkup (raw ++ rest') = .ok (m, rest') := by
  obtain ⟨raw', heq, hwrites⟩ := exists_writes_of_takeMarkup h
  rw [List.append_cancel_right heq]
  exact hwrites rest'

/-- Put in space on both sides of a tag. -/
theorem Respaced.tag (afterTag : Bool) (before text after : List Char)
    {raw rest rest' : List Char} {m : Markup} (h : takeMarkup raw = .ok (m, []))
    (hm : m.isTag = true) (plain : '<' ∉ text) (hbefore : Blank before)
    (hbehind : before = [] ∨ afterTag = true) (hafter : Blank after)
    (hrest : Respaced true rest rest') :
    Respaced afterTag (text ++ '<' :: (raw ++ rest))
      (before ++ (text ++ (after ++ '<' :: (raw ++ rest')))) := by
  rw [← List.append_nil raw] at h
  exact .piece plain (takeMarkup_append h rest) hbefore hbehind hafter (.inr hm) (hm ▸ hrest)

/-- A document laid out anew gives the same events. -/
theorem Respaced.eventsFrom {afterTag : Bool} {source source' : List Char}
    (h : Respaced afterTag source source') (opened : List Open) :
    eventsFrom opened source' = Xml.eventsFrom opened source := by
  induction h generalizing opened with
  | @piece _ before text after raw rest rest' m plain recognised hbefore _ hafter _ _ ih =>
    have hplain : '<' ∉ before ++ (text ++ after) := by
      simp [hbefore.plain, plain, hafter.plain]
    have hshape : before ++ (text ++ (after ++ '<' :: (raw ++ rest'))) =
        before ++ (text ++ after) ++ '<' :: (raw ++ rest') := by simp
    rw [hshape, eventsFrom_markup hplain, eventsFrom_markup plain, afterText_blank hbefore hafter,
      afterMarkup, afterMarkup, recognised, takeMarkup_append recognised rest']
    dsimp only
    cases m.events opened with
    | error d => rfl
    | ok more =>
      dsimp only
      rw [ih]
  | rest hbefore _ text => exact eventsFrom_blank hbefore opened text

/-- A byte order mark is no white space, so it stays where it is. -/
theorem Respaced.skipMark {source source' : List Char} (h : Respaced false source source') :
    Respaced false (skipMark source) (Xml.skipMark source') := by
  cases h with
  | rest hbefore hbehind text =>
    obtain rfl := hbehind.resolve_right Bool.false_ne_true
    exact .rest hbefore (.inl rfl) _
  | @piece _ before text after raw rest rest' m plain known hbefore hbehind hafter hat hrest =>
    obtain rfl := hbehind.resolve_right Bool.false_ne_true
    have again (text : List Char) (plain : '<' ∉ text) :
        Respaced false (text ++ '<' :: (raw ++ rest))
          (text ++ (after ++ '<' :: (raw ++ rest'))) :=
      Respaced.piece plain known Blank.nil (.inl rfl) hafter hat hrest
    rw [List.nil_append]
    cases text with
    | nil =>
      have hkeep : Xml.skipMark (after ++ '<' :: (raw ++ rest')) =
          after ++ '<' :: (raw ++ rest') := by
        cases after with
        | nil => exact skipMark_cons_of_ne (by decide) _
        | cons c after =>
          refine skipMark_cons_of_ne ?_ _
          rintro rfl
          exact absurd (hafter _ List.mem_cons_self) (by decide)
      rw [List.nil_append, List.nil_append, skipMark_cons_of_ne (by decide), hkeep]
      exact again [] plain
    | cons c text =>
      by_cases hc : c = '\uFEFF'
      · subst hc
        exact again text fun hmem => plain (List.mem_cons_of_mem _ hmem)
      · rw [List.cons_append, List.cons_append, skipMark_cons_of_ne hc, skipMark_cons_of_ne hc]
        exact again (c :: text) plain

theorem Respaced.events {source source' : List Char} (h : Respaced false source source') :
    events source' = Xml.events source := h.skipMark.eventsFrom []

end ClaimMapping.Xml

namespace ClaimMapping.Provider.Saml

/-- White space around the tags of a document changes nothing of what is read from it. -/
theorem read_respaced {payload payload' : String}
    (h : Xml.Respaced false payload.toList payload'.toList) : read payload' = read payload := by
  rw [read, read, h.events]

def laidOut : List Char :=
  ("<Response xmlns='urn:oasis:names:tc:SAML:2.0:protocol'>\n  <Assertion>\n    <Subject>\n" ++
    "      <NameID>\r\n\tbob\n</NameID></Subject></Assertion></Response>").toList

theorem respaced_laidOut :
    Xml.Respaced false (opening ++ ("bob".toList ++ closing)) laidOut := by
  have hidEnd : Xml.takeMarkup "/NameID>".toList = .ok (.closing "NameID".toList, []) := by cbv
  have hend := Xml.Respaced.refl true "</Subject></Assertion></Response>".toList
  have hbob := Xml.Respaced.tag true "\r\n\t".toList "bob".toList "\n".toList hidEnd rfl
    (by decide) (by decide) (.inr rfl) (by decide) hend
  have hname := Xml.Respaced.tag true "\n".toList [] "      ".toList takeMarkup_nameId rfl
    (by decide) (by decide) (.inr rfl) (by decide) hbob
  have hinner := Xml.Respaced.tag true "\n".toList [] "    ".toList takeMarkup_subject rfl
    (by decide) (by decide) (.inr rfl) (by decide) hname
  have houter := Xml.Respaced.tag true "\n".toList [] "  ".toList takeMarkup_assertion rfl
    (by decide) (by decide) (.inr rfl) (by decide) hinner
  have hall := Xml.Respaced.tag false [] [] [] takeMarkup_response rfl (by decide) (by decide)
    (.inl rfl) (by decide) houter
  convert hall using 1
  · cbv
  · cbv

/-- Line ends and indentation between the tags and around the name. -/
theorem read_laidOut :
    Xml.Respaced false (opening ++ ("bob".toList ++ closing)) laidOut ∧
      read (String.ofList laidOut) = .ok ⟨"bob", []⟩ := by
  have hread : Xml.Respaced false
      (String.ofList (opening ++ ("bob".toList ++ closing))).toList (String.ofList laidOut).toList →
        read (String.ofList laidOut) =
          read (String.ofList (opening ++ ("bob".toList ++ closing))) := read_respaced
  rw [String.toList_ofList (l := opening ++ ("bob".toList ++ closing)),
    String.toList_ofList (l := laidOut)] at hread
  refine ⟨respaced_laidOut, (hread respaced_laidOut).trans ?_⟩
  exact Journal.eq_ok_of_toOption (by decide +kernel)

end ClaimMapping.Provider.Saml
