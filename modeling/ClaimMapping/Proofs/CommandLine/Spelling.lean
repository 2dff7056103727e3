import ClaimMapping.CommandLine.Options
import ClaimMapping.Proofs.Text.Search
import Mathlib

namespace ClaimMapping.CommandLine

/-- The long name of an option, behind two minus signs. -/
def Field.name : Field → String
  | .payload => "payload"
  | .request => "request"
  | .provider => "provider"
  | .mapping => "mapping"
  | .condition => "condition"

/-- The letter of an option, behind one minus sign. -/
def Field.letter? : Field → Option Char
  | .payload => some 'p'
  | .request => some 'r'
  | .provider => none
  | .mapping => some 'm'
  | .condition => some 'c'

theorem Switch.ofName?_eq_field_iff {name : String} {f : Field} :
    ofName? name = some (.field f) ↔ name = f.name := by
  constructor
  · intro h
    unfold ofName? at h
    split at h <;> cases h <;> rfl
  · rintro rfl
    cases f <;> rfl

theorem Switch.ofLetter?_eq_field_iff {c : Char} {f : Field} :
    ofLetter? c = some (.field f) ↔ f.letter? = some c := by
  constructor
  · intro h
    unfold ofLetter? at h
    split at h <;> cases h <;> rfl
  · intro h
    cases f <;> cases h <;> rfl

theorem Field.toList_name_ne_nil (f : Field) : f.name.toList ≠ [] := by
  cases f <;> decide

theorem Field.not_mem_name (f : Field) : '=' ∉ f.name.toList := by
  cases f <;> decide

theorem Field.ne_minus_of_letter? {f : Field} {c : Char} (h : f.letter? = some c) : c ≠ '-' := by
  cases f <;> cases h <;> decide

/-- A minus sign in front makes an argument an option, unless it is all of it. -/
def IsPlain (text : String) : Prop := text.toList = ['-'] ∨ ∀ rest, text.toList ≠ '-' :: rest

/-- An argument that names an option, with the value if it has one. -/
inductive Names (f : Field) (text : String) : Option String → Prop where
  | name (h : text.toList = '-' :: '-' :: f.name.toList) : Names f text none
  | nameValue {value : String}
      (h : text.toList = '-' :: '-' :: (f.name.toList ++ '=' :: value.toList)) :
      Names f text (some value)
  | letter {c : Char} (hc : f.letter? = some c) (h : text.toList = ['-', c]) : Names f text none
  | letterEquals {c : Char} {value : String} (hc : f.letter? = some c)
      (h : text.toList = '-' :: c :: '=' :: value.toList) : Names f text (some value)
  | letterValue {c : Char} {value : String} (hc : f.letter? = some c)
      (h : text.toList = '-' :: c :: value.toList) (ne : value ≠ "")
      (other : ∀ rest, value.toList ≠ '=' :: rest) : Names f text (some value)

namespace Argument

theorem ofText_long {text : String} {rest : List Char} (h : text.toList = '-' :: '-' :: rest)
    (hne : rest ≠ []) :
    ofText text =
      match Text.breakChar? '=' rest with
      | some (name, value) => .long (String.ofList name) (some (String.ofList value))
      | none => .long (String.ofList rest) none := by
  obtain ⟨c, others, rfl⟩ := List.exists_cons_of_ne_nil hne
  rw [ofText, h]
  rfl

theorem ofText_short {text : String} {c : Char} {rest : List Char}
    (h : text.toList = '-' :: c :: rest) (hc : c ≠ '-') : ofText text = .short c rest := by
  rw [ofText, h]
  split
  case h_1 heq => exact absurd (List.cons.inj (List.cons.inj heq).2).1 hc
  case h_2 heq => exact absurd (List.cons.inj (List.cons.inj heq).2).1 hc
  case h_3 heq =>
    cases heq
    rfl
  case h_4 hother => exact absurd rfl (hother c rest)

theorem ofText_plain {text : String} (h : IsPlain text) : ofText text = .plain text := by
  unfold ofText
  obtain h | h := h
  · rw [h]
    rfl
  · split
    case h_1 heq => exact absurd heq (h _)
    case h_2 heq => exact absurd heq (h _)
    case h_3 heq => exact absurd heq (h _)
    case h_4 => rfl

theorem isPlain_of_ofText {text value : String} (h : ofText text = .plain value) :
    IsPlain text ∧ value = text := by
  unfold ofText at h
  split at h
  case h_1 => cases h
  case h_2 => split at h <;> cases h
  case h_3 => cases h
  case h_4 hseparator hlong hshort =>
    cases h
    refine ⟨?_, rfl⟩
    by_cases hminus : ∃ rest, text.toList = '-' :: rest
    · obtain ⟨rest, hrest⟩ := hminus
      cases rest with
      | nil => exact .inl hrest
      | cons c rest => exact absurd hrest (hshort c rest)
    · exact .inr (not_exists.mp hminus)

theorem toList_of_ofText_long {text name : String} {value : Option String}
    (h : ofText text = .long name value) :
    text.toList = '-' :: '-' ::
      match value with
      | none => name.toList
      | some value => name.toList ++ '=' :: value.toList := by
  unfold ofText at h
  split at h
  case h_1 => cases h
  case h_2 rest _ heq =>
    rw [heq]
    split at h
    case h_1 front back hbreak =>
      cases h
      obtain ⟨-, rfl⟩ := Text.breakChar?_eq_some_iff.mp hbreak
      simp only [String.toList_ofList]
    case h_2 =>
      cases h
      simp only [String.toList_ofList]
  case h_3 => cases h
  case h_4 => cases h

theorem toList_of_ofText_short {text : String} {c : Char} {rest : List Char}
    (h : ofText text = .short c rest) : text.toList = '-' :: c :: rest := by
  unfold ofText at h
  split at h
  case h_1 => cases h
  case h_2 => split at h <;> cases h
  case h_3 heq =>
    cases h
    exact heq
  case h_4 => cases h

theorem eq_of_ofText_separator {text : String} (h : ofText text = .separator) : text = "--" := by
  unfold ofText at h
  split at h
  case h_1 heq => exact String.toList_inj.mp heq
  case h_2 => split at h <;> cases h
  case h_3 => cases h
  case h_4 => cases h

end Argument

/-- A value that follows its letter directly is taken whole, unless it begins with an equals
sign. -/
theorem attached?_toList {value : String} (ne : value ≠ "")
    (other : ∀ rest, value.toList ≠ '=' :: rest) : attached? value.toList = some value := by
  unfold attached?
  split
  case h_1 heq => exact absurd (String.toList_eq_nil_iff.mp heq) ne
  case h_2 rest heq => exact absurd heq (other rest)
  case h_3 => rw [String.ofList_toList]

/-- The form of an argument that names an option. -/
theorem names_iff {f : Field} {text : String} {value : Option String} :
    Names f text value ↔
      (∃ name, Argument.ofText text = .long name value ∧
        Switch.ofName? name = some (.field f)) ∨
      (∃ c rest, Argument.ofText text = .short c rest ∧ Switch.ofLetter? c = some (.field f) ∧
        attached? rest = value) := by
  simp only [Switch.ofName?_eq_field_iff, Switch.ofLetter?_eq_field_iff]
  constructor
  · intro h
    cases h with
    | name h =>
      have hbreak : Text.breakChar? '=' f.name.toList = none :=
        Text.breakChar?_eq_none_iff.mpr f.not_mem_name
      refine .inl ⟨f.name, ?_, rfl⟩
      rw [Argument.ofText_long h f.toList_name_ne_nil, hbreak]
      simp only [String.ofList_toList]
    | @nameValue value h =>
      have hbreak : Text.breakChar? '=' (f.name.toList ++ '=' :: value.toList) =
          some (f.name.toList, value.toList) :=
        Text.breakChar?_eq_some_iff.mpr ⟨f.not_mem_name, rfl⟩
      refine .inl ⟨f.name, ?_, rfl⟩
      rw [Argument.ofText_long h (by simp), hbreak]
      simp only [String.ofList_toList]
    | letter hc h =>
      exact .inr ⟨_, [], Argument.ofText_short h (Field.ne_minus_of_letter? hc), hc, rfl⟩
    | @letterEquals c value hc h =>
      refine .inr ⟨c, _, Argument.ofText_short h (Field.ne_minus_of_letter? hc), hc, ?_⟩
      rw [attached?, String.ofList_toList]
    | @letterValue c value hc h ne other =>
      exact .inr ⟨c, _, Argument.ofText_short h (Field.ne_minus_of_letter? hc), hc,
        attached?_toList ne other⟩
  · intro h
    obtain ⟨name, htext, rfl⟩ | ⟨c, rest, htext, hc, rfl⟩ := h
    · have hlist := Argument.toList_of_ofText_long htext
      cases value with
      | none => exact .name hlist
      | some value => exact .nameValue hlist
    · have hlist := Argument.toList_of_ofText_short htext
      unfold attached?
      split
      case h_1 => exact .letter hc hlist
      case h_2 rest => exact .letterEquals hc (by rw [hlist, String.toList_ofList])
      case h_3 hne hother =>
        have hvalue : text.toList = '-' :: c :: (String.ofList rest).toList := by
          rw [hlist, String.toList_ofList]
        refine .letterValue hc hvalue (fun he => hne ?_) fun others he => hother others ?_
        · rw [← String.toList_ofList (l := rest), he]
          rfl
        · rw [← he, String.toList_ofList]

/-- The options that are given one after the other; two minus signs may follow the last one. -/
inductive Spells : List String → List (Field × String) → Prop where
  | nil : Spells [] []
  | separator : Spells ["--"] []
  | attached {f : Field} {text value : String} {arguments : List String}
      {given : List (Field × String)} (names : Names f text (some value))
      (rest : Spells arguments given) : Spells (text :: arguments) ((f, value) :: given)
  | apart {f : Field} {text value : String} {arguments : List String}
      {given : List (Field × String)} (names : Names f text none) (plain : IsPlain value)
      (rest : Spells arguments given) : Spells (text :: value :: arguments) ((f, value) :: given)

/-- Options given one after the other. -/
def Draft.giveAll? (d : Draft) (given : List (Field × String)) : Option Draft :=
  given.foldlM (fun d e => d.give? e.1 e.2) d

/-- Reading goes on behind a value unless the value is refused. -/
def readBehind (rest : List String) : Option Draft → Invocation
  | some d => readArguments rest none d
  | none => .mistake

section

variable {f : Field} {text value : String}

theorem readArguments_attached (h : Names f text (some value)) (rest : List String) (d : Draft) :
    readArguments (text :: rest) none d = readBehind rest (d.give? f value) := by
  rw [readArguments.eq_def]
  obtain ⟨name, htext, hname⟩ | ⟨c, others, htext, hc, hvalue⟩ := names_iff.mp h
  · simp only [htext, hname]
    cases d.give? f value <;> rfl
  · simp only [htext, hc, hvalue]
    cases d.give? f value <;> rfl

theorem readArguments_apart (h : Names f text none) (rest : List String) (d : Draft) :
    readArguments (text :: rest) none d = readArguments rest (some f) d := by
  rw [readArguments.eq_def]
  obtain ⟨name, htext, hname⟩ | ⟨c, others, htext, hc, hvalue⟩ := names_iff.mp h
  · simp only [htext, hname]
  · simp only [htext, hc, hvalue]

theorem readArguments_pending (h : IsPlain value) (f : Field) (rest : List String) (d : Draft) :
    readArguments (value :: rest) (some f) d = readBehind rest (d.give? f value) := by
  rw [readArguments.eq_def]
  simp only [Argument.ofText_plain h]
  cases d.give? f value <;> rfl

theorem readArguments_of_spells {arguments : List String} {given : List (Field × String)}
    (h : Spells arguments given) (d : Draft) :
    readArguments arguments none d =
      match d.giveAll? given with
      | some d => d.finish
      | none => .mistake := by
  induction h generalizing d with
  | nil => rfl
  | separator => rfl
  | @attached f text value arguments given names rest ih =>
    rw [readArguments_attached names, Draft.giveAll?, List.foldlM_cons]
    cases d.give? f value with
    | none => rfl
    | some d => exact ih d
  | @apart f text value arguments given names plain rest ih =>
    rw [readArguments_apart names, readArguments_pending plain, Draft.giveAll?, List.foldlM_cons]
    cases d.give? f value with
    | none => rfl
    | some d => exact ih d

theorem isPlain_of_readArguments {rest : List String} {d : Draft} {o : Options}
    (h : readArguments (text :: rest) (some f) d = .run o) : IsPlain text := by
  rw [readArguments.eq_def] at h
  cases htext : Argument.ofText text with
  | plain value => exact (Argument.isPlain_of_ofText htext).1
  | _ =>
    simp only [htext] at h
    cases h

/-- What an accepted argument is when no option waits for its value. -/
theorem names_of_readArguments {rest : List String} {d : Draft} {o : Options}
    (h : readArguments (text :: rest) none d = .run o) :
    text = "--" ∧ rest = [] ∨ ∃ f value, Names f text value := by
  rw [readArguments.eq_def] at h
  cases htext : Argument.ofText text with
  | plain value =>
    simp only [htext] at h
    cases h
  | separator =>
    simp only [htext] at h
    cases rest with
    | nil => exact .inl ⟨Argument.eq_of_ofText_separator htext, rfl⟩
    | cons next rest => cases h
  | long name value =>
    rcases hname : Switch.ofName? name with _ | _ | _ | f
    · simp only [htext, hname] at h
      cases h
    · simp only [htext, hname] at h
      cases value <;> cases h
    · simp only [htext, hname] at h
      cases value <;> cases h
    · exact .inr ⟨f, value, names_iff.mpr (.inl ⟨name, htext, hname⟩)⟩
  | short c value =>
    rcases hc : Switch.ofLetter? c with _ | _ | _ | f
    · simp only [htext, hc] at h
      cases h
    · simp only [htext, hc] at h
      cases h
    · simp only [htext, hc] at h
      cases h
    · exact .inr ⟨f, attached? value, names_iff.mpr (.inr ⟨c, value, htext, hc, rfl⟩)⟩

/-- Accepted arguments spell some options. An option that waits takes the argument behind it. -/
theorem exists_spells_of_readArguments {arguments : List String} {pending : Option Field}
    {d : Draft} {o : Options} (h : readArguments arguments pending d = .run o) :
    match pending with
    | none => ∃ given, Spells arguments given
    | some _ => ∃ value rest given, arguments = value :: rest ∧ IsPlain value ∧
        Spells rest given := by
  -- An option in an argument of its own is spelled only with the argument behind it, hence the two
  -- cases of what waits.
  induction arguments generalizing pending d with
  | nil =>
    cases pending with
    | none => exact ⟨[], .nil⟩
    | some f => cases h
  | cons text rest ih =>
    have hrest {d? : Option Draft} (h : readBehind rest d? = .run o) :
        ∃ given, Spells rest given := by
      cases d? with
      | none => cases h
      | some d' => exact ih h
    cases pending with
    | some f =>
      have hplain : IsPlain text := isPlain_of_readArguments h
      rw [readArguments_pending hplain] at h
      obtain ⟨given, hgiven⟩ := hrest h
      exact ⟨text, rest, given, rfl, hplain, hgiven⟩
    | none =>
      obtain ⟨rfl, rfl⟩ | ⟨f, _ | value, hnames⟩ := names_of_readArguments h
      · exact ⟨[], .separator⟩
      · rw [readArguments_apart hnames] at h
        obtain ⟨value, rest, given, rfl, hplain, hgiven⟩ := ih h
        exact ⟨(f, value) :: given, .apart hnames hplain hgiven⟩
      · rw [readArguments_attached hnames] at h
        obtain ⟨given, hgiven⟩ := hrest h
        exact ⟨(f, value) :: given, .attached hnames hgiven⟩

end

/-- What arguments ask for is in the options that they spell. -/
theorem read_of_spells {arguments : List String} {given : List (Field × String)}
    (h : Spells arguments given) :
    Invocation.read arguments =
      match Draft.empty.giveAll? given with
      | some d => d.finish
      | none => .mistake := readArguments_of_spells h .empty

/-- The arguments that are accepted spell a list of options with their values, each in one of five
ways. -/
theorem exists_spells_of_read {arguments : List String} {o : Options}
    (h : Invocation.read arguments = .run o) : ∃ given, Spells arguments given :=
  @exists_spells_of_readArguments arguments none .empty o h

end ClaimMapping.CommandLine
