import ClaimMapping.Proofs.Saml.Inert
import ClaimMapping.Proofs.Xml.Place
import ClaimMapping.Proofs.Xml.Reference

namespace ClaimMapping.Provider.Saml

open Journal (ok_bind)
open Xml (isSpace afterText eventsFrom comment)

namespace State

/-- What the rest of a document makes of a state. -/
def readFrom (s : State) (stream : Xml.Stream) : Except ParseError Assertion := do
  let s ← s.run stream.events
  match stream.defect with
  | some d => .error (.xml d)
  | none => s.finish

def addText (s : State) (content : List Char) : State := { s with text := s.text ++ content }

variable (s : State)

theorem readFrom_append (es : List Xml.Event) (stream : Xml.Stream) :
    s.readFrom (Xml.Stream.append es stream) = s.run es >>= fun s => s.readFrom stream := by
  have hevents : (Xml.Stream.append es stream).events = es ++ stream.events := rfl
  rw [readFrom, hevents, run_append, bind_assoc]
  rfl

theorem readFrom_aside (stream : Xml.Stream) :
    s.readFrom (Xml.Stream.append [.aside] stream) = s.readFrom stream := by
  rw [readFrom_append]
  rfl

theorem addText_addText (content more : List Char) :
    (s.addText content).addText more = s.addText (content ++ more) := by
  simp [addText]

/-- Text is trimmed, unescaped and added. -/
theorem readFrom_afterText (text : List Char) (next : Xml.Stream) :
    s.readFrom (afterText text next) =
      (Xml.unescape (Text.trimBy isSpace text)).mapError .xml >>= fun content =>
        (s.addText content).readFrom next := by
  rw [afterText, Xml.textEvents]
  cases Text.trimBy isSpace text with
  | nil =>
    have hsame : s.addText [] = s := by simp [addText]
    dsimp only
    rw [Xml.Stream.append_nil, Xml.unescape_nil, Except.mapError, ok_bind, hsame]
  | cons c text =>
    dsimp only
    cases Xml.unescape (c :: text) with
    | error d => rfl
    | ok content =>
      change s.readFrom (Xml.Stream.append [.text content] next) = _
      rw [readFrom_append]
      rfl

/-- A text in two pieces, of which the first ends the references that begin in it. -/
theorem readFrom_pieces {left : List Char} (h : Xml.EndsReferences left) (right : List Char)
    (next : Xml.Stream) :
    s.readFrom (afterText left (Xml.Stream.append [.aside] (afterText right next))) =
      (Xml.unescape (Text.trimBy isSpace left ++ Text.trimBy isSpace right)).mapError .xml >>=
        fun content => (s.addText content).readFrom next := by
  rw [readFrom_afterText, Xml.unescape_append h.trimBy]
  cases Xml.unescape (Text.trimBy isSpace left) with
  | error d => rfl
  | ok content =>
    rw [Except.mapError, ok_bind, ok_bind, readFrom_aside, readFrom_afterText]
    cases Xml.unescape (Text.trimBy isSpace right) with
    | error d => rfl
    | ok more =>
      rw [Except.mapError, ok_bind, addText_addText]
      rfl

end State

/-- Reading a document from a place inside an element on. -/
theorem read_from {source : List Char} {es : List Xml.Event} {opened : List Xml.Open}
    (h : Xml.Reads [] (Xml.skipMark source) es opened) (hopen : opened ≠ []) (tail : List Char) :
    read (String.ofList (source ++ tail)) =
      State.initial.run es >>= fun s => s.readFrom (eventsFrom opened tail) := by
  have hmark : Xml.skipMark (source ++ tail) = Xml.skipMark source ++ tail := by
    apply Xml.skipMark_append
    rintro rfl
    exact h.ne_nil hopen rfl
  have hread : read (String.ofList (source ++ tail)) =
      State.initial.readFrom (eventsFrom [] (Xml.skipMark (source ++ tail))) := by
    rw [read, String.toList_ofList]
    rfl
  rw [hread, hmark, h.eventsFrom_append, State.readFrom_append]

/-- A place in the character data of an element: behind whole pieces of the document and a text,
neither in markup nor in a reference. -/
structure InElement (source left : List Char) : Prop where
  exists_reads : ∃ es opened, Xml.Reads [] (Xml.skipMark source) es opened ∧ opened ≠ []
  plain : '<' ∉ left
  ends : Xml.EndsReferences left

/-- A place of a document without a defect is in the character data of an element, unless it is in
markup, inside of a reference or outside of every element. -/
theorem inElement_cases {front back : List Char} (h : (Xml.events (front ++ back)).defect = none) :
    Xml.InMarkup [] (Xml.skipMark front) back ∨
      ∃ source left, front = source ++ left ∧ '<' ∉ left ∧
        (InElement source left ∨ ¬ Xml.EndsReferences left ∨
          ∃ es, Xml.Reads [] (Xml.skipMark source) es []) := by
  by_cases hfront : front = []
  · subst hfront
    exact .inr ⟨[], [], rfl, List.not_mem_nil, .inr (.inr ⟨[], .nil []⟩)⟩
  have hdefect : (eventsFrom [] (Xml.skipMark front ++ back)).defect = none := by
    rw [← Xml.skipMark_append hfront]
    exact h
  obtain htext | hmarkup := Xml.inText_or_inMarkup hdefect
  · obtain ⟨source, left, es, opened, rfl, hreads, hplain⟩ := htext.exists_source
    refine .inr ⟨source, left, rfl, hplain, ?_⟩
    by_cases hopen : opened = []
    · subst hopen
      exact .inr (.inr ⟨es, hreads⟩)
    by_cases hends : Xml.EndsReferences left
    · exact .inl ⟨⟨es, opened, hreads, hopen⟩, hplain, hends⟩
    · exact .inr (.inl hends)
  · exact .inl hmarkup

section Comments

variable {source left body : List Char}

/-- A text that is trimmed to the same as the two pieces around a comment stands for them. -/
theorem read_comment_eq (h : InElement source left) (hbody : Xml.IsCommentBody body)
    {text right after : List Char} (htext : '<' ∉ text) (hright : '<' ∉ right)
    (hafter : after = [] ∨ ∃ tail, after = '<' :: tail)
    (htrim : Text.trimBy isSpace text = Text.trimBy isSpace left ++ Text.trimBy isSpace right) :
    read (String.ofList (source ++ (left ++ (comment body ++ (right ++ after))))) =
      read (String.ofList (source ++ (text ++ after))) := by
  obtain ⟨es, opened, hsource, hopen⟩ := h.exists_reads
  rw [read_from hsource hopen, read_from hsource hopen]
  apply bind_congr
  intro s
  rw [Xml.eventsFrom_comment h.plain hbody, Xml.eventsFrom_append hright hafter,
    Xml.eventsFrom_append htext hafter, s.readFrom_pieces h.ends, s.readFrom_afterText, htrim]

/-- Nothing is trimmed at the place, or all of the text up to the markup on one side. -/
def Seamless (left back : List Char) : Prop :=
  (∀ c ∈ left, isSpace c = true) ∨ (∀ c ∈ back.takeWhile (· != '<'), isSpace c = true) ∨
    Text.trimEnd isSpace left = left ∧ Text.trimStart isSpace back = back

/-- A comment in the character data of an element takes away the space on both sides of it, and
leaves the assertion as it is where there is no such space between two texts. -/
theorem read_comment (h : InElement source left) (hbody : Xml.IsCommentBody body)
    (back : List Char) :
    read (String.ofList (source ++ (left ++ (comment body ++ back)))) =
      read (String.ofList (source ++ (Text.trimEnd isSpace left ++ Text.trimStart isSpace back))) ∧
    (Seamless left back → read (String.ofList (source ++ (left ++ (comment body ++ back)))) =
      read (String.ofList (source ++ (left ++ back)))) := by
  obtain ⟨right, after, rfl, hwhile, hright, hafter⟩ := Xml.exists_text_append back
  have hstart : Text.trimStart isSpace (right ++ after) =
      Text.trimStart isSpace right ++ after := by
    obtain rfl | ⟨tail, rfl⟩ := hafter
    · simp
    · exact Text.trimStart_append_cons (by decide) right tail
  constructor
  · have htext : '<' ∉ Text.trimEnd isSpace left ++ Text.trimStart isSpace right := by
      intro hmem
      rcases List.mem_append.mp hmem with hmem | hmem
      · exact h.plain ((Text.trimEnd_prefix left).subset hmem)
      · exact hright ((Text.trimStart_suffix right).subset hmem)
    rw [hstart, ← List.append_assoc (Text.trimEnd isSpace left)]
    exact read_comment_eq h hbody htext hright hafter
      (Text.trimBy_trimEnd_append_trimStart isSpace left right)
  · intro hseam
    have htext : '<' ∉ left ++ right := by simp [h.plain, hright]
    rw [Seamless, hwhile, hstart, List.append_cancel_right_eq] at hseam
    rw [← List.append_assoc left right after]
    exact read_comment_eq h hbody htext hright hafter (Text.trimBy_append hseam)

end Comments

/-- The scope of a document in the namespace of the protocol. -/
def protocolScope : Xml.Scope := [⟨none, protocolNamespace⟩]

/-- A response up to the text of its subject. -/
def opening : List Char :=
  "<Response xmlns='urn:oasis:names:tc:SAML:2.0:protocol'><Assertion><Subject><NameID>".toList

def closing : List Char := "</NameID></Subject></Assertion></Response>".toList

theorem takeMarkup_response :
    Xml.takeMarkup "Response xmlns='urn:oasis:names:tc:SAML:2.0:protocol'>".toList =
      .ok (.tag "Response xmlns='urn:oasis:names:tc:SAML:2.0:protocol'".toList, []) := by cbv

theorem takeMarkup_assertion :
    Xml.takeMarkup "Assertion>".toList = .ok (.tag "Assertion".toList, []) := by cbv

theorem takeMarkup_subject :
    Xml.takeMarkup "Subject>".toList = .ok (.tag "Subject".toList, []) := by cbv

theorem takeMarkup_nameId :
    Xml.takeMarkup "NameID>".toList = .ok (.tag "NameID".toList, []) := by cbv

/-- Behind the opening four elements are open. -/
theorem reads_opening : ∃ es, Xml.Reads [] (Xml.skipMark opening) es
    [⟨"NameID".toList, protocolScope⟩, ⟨"Subject".toList, protocolScope⟩,
      ⟨"Assertion".toList, protocolScope⟩, ⟨"Response".toList, protocolScope⟩] :=
  ⟨_, .markup takeMarkup_response rfl (.markup takeMarkup_assertion rfl
    (.markup takeMarkup_subject rfl (.markup takeMarkup_nameId rfl (.nil _))))⟩

theorem inElement_opening {left : List Char} (hplain : '<' ∉ left) (hends : '&' ∉ left) :
    InElement opening left where
  exists_reads := by
    obtain ⟨es, hreads⟩ := reads_opening
    exact ⟨es, _, hreads, List.cons_ne_nil _ _⟩
  plain := hplain
  ends := by
    rintro before after rfl
    simp at hends

theorem isCommentBody_letter : Xml.IsCommentBody " c ".toList := by decide

theorem read_insideWord : Seamless "ali".toList ("ce smith".toList ++ closing) ∧
    read (String.ofList (opening ++ ("ali".toList ++ (comment " c ".toList ++
      ("ce smith".toList ++ closing))))) =
      read (String.ofList (opening ++ ("ali".toList ++ ("ce smith".toList ++ closing)))) := by
  have hplace : InElement opening "ali".toList := inElement_opening (by decide) (by decide)
  have hseam : Seamless "ali".toList ("ce smith".toList ++ closing) := .inr (.inr ⟨rfl, rfl⟩)
  have hread := read_comment hplace isCommentBody_letter ("ce smith".toList ++ closing)
  exact ⟨hseam, hread.2 hseam⟩

theorem read_twoWords :
    read (String.ofList (opening ++ ("alice ".toList ++ ("smith".toList ++ closing)))) =
      .ok ⟨"alice smith", []⟩ := Journal.eq_ok_of_toOption (by decide +kernel)

theorem read_twoWords_comment :
    read (String.ofList (opening ++ ("alice ".toList ++ (comment " c ".toList ++
      ("smith".toList ++ closing))))) = .ok ⟨"alicesmith", []⟩ :=
  Journal.eq_ok_of_toOption (by decide +kernel)

/-- A comment behind the space between two words makes them one. -/
theorem read_betweenWords :
    InElement opening "alice ".toList ∧ Xml.IsCommentBody " c ".toList ∧
    read (String.ofList (opening ++ ("alice ".toList ++ ("smith".toList ++ closing)))) =
      .ok ⟨"alice smith", []⟩ ∧
    read (String.ofList (opening ++ ("alice ".toList ++ (comment " c ".toList ++
      ("smith".toList ++ closing))))) = .ok ⟨"alicesmith", []⟩ := by
  have hplace : InElement opening "alice ".toList := inElement_opening (by decide) (by decide)
  exact ⟨hplace, isCommentBody_letter, read_twoWords, read_twoWords_comment⟩

end ClaimMapping.Provider.Saml
