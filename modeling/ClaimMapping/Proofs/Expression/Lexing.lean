import ClaimMapping.Expression.Token
import ClaimMapping.Proofs.Journal.Outcome

namespace ClaimMapping.Expression

/-- What stands between two tokens: white space, and comments that reach to the end of their
line. -/
inductive IsLayout : List Char → Prop where
  | nil : IsLayout []
  | blank {c : Char} {text : List Char} (hc : Text.isBlank c = true) (h : IsLayout text) :
    IsLayout (c :: text)
  | comment {body text : List Char} {stop : Char} (hbody : '\n' ∉ body ∧ '\r' ∉ body)
    (hstop : stop = '\n' ∨ stop = '\r') (h : IsLayout text) :
    IsLayout ('/' :: '/' :: (body ++ stop :: text))

/-- The tokens that a text begins with, each behind some layout. -/
inductive Lexes : List Char → List Token → Prop where
  | stop (text : List Char) : Lexes text []
  | token {gap text taken : List Char} {t : Token} {ts : List Token} (hgap : IsLayout gap)
    (hpiece : piece? text = some (taken, t)) (h : Lexes (text.drop taken.length) ts) :
    Lexes (gap ++ text) (t :: ts)

theorem Lexes.blank {c : Char} {text : List Char} {ts : List Token} (h : Lexes text ts)
    (hc : Text.isBlank c = true) : Lexes (c :: text) ts := by
  cases h with
  | stop => exact .stop _
  | token hgap hpiece h => exact .token (.blank hc hgap) hpiece h

theorem Lexes.blanks {run text : List Char} {ts : List Token} (h : Lexes text ts)
    (hrun : ∀ c ∈ run, Text.isBlank c = true) : Lexes (run ++ text) ts := by
  induction run with
  | nil => exact h
  | cons c run ih =>
    obtain ⟨hc, hrun⟩ := List.forall_mem_cons.mp hrun
    exact (ih hrun).blank hc

theorem Lexes.comment {body text : List Char} {stop : Char} {ts : List Token} (h : Lexes text ts)
    (hbody : '\n' ∉ body ∧ '\r' ∉ body) (hstop : stop = '\n' ∨ stop = '\r') :
    Lexes ('/' :: '/' :: (body ++ stop :: text)) ts := by
  cases h with
  | stop => exact .stop _
  | token hgap hpiece h =>
    have hcomment := Lexes.token (.comment hbody hstop hgap) hpiece h
    simpa using hcomment

def isLineEnd (c : Char) : Bool := c == '\n' || c == '\r'

theorem isLineEnd_iff {c : Char} : isLineEnd c = true ↔ c = '\n' ∨ c = '\r' := by
  simp [isLineEnd]

/-- A comment is its body and the line ends behind it; at the end of the text there may be none. -/
theorem exists_of_takeComment? {text comment : List Char} (h : takeComment? text = some comment) :
    ∃ body ends, ('\n' ∉ body ∧ '\r' ∉ body) ∧ (∀ c ∈ ends, c = '\n' ∨ c = '\r') ∧
      text = '/' :: '/' :: (body ++ (ends ++ text.drop comment.length)) ∧
      (ends = [] → text.drop comment.length = []) := by
  unfold takeComment? at h
  split at h
  case h_1 rest =>
    replace h : '/' :: '/' :: rest.takeWhile (fun c => !isLineEnd c) ++
        (rest.dropWhile fun c => !isLineEnd c).takeWhile isLineEnd = comment := Option.some.inj h
    have hbody : ∀ c ∈ rest.takeWhile fun c => !isLineEnd c, isLineEnd c = false := by
      intro c hc
      simpa using List.mem_takeWhile_imp hc
    have hrest : rest.takeWhile (fun c => !isLineEnd c) ++
        rest.dropWhile (fun c => !isLineEnd c) = rest := List.takeWhile_append_dropWhile
    generalize rest.takeWhile (fun c => !isLineEnd c) = body at h hbody hrest
    generalize htail : rest.dropWhile (fun c => !isLineEnd c) = tail at h hrest
    subst hrest
    have hdrop : ('/' :: '/' :: (body ++ tail)).drop comment.length = tail.dropWhile isLineEnd := by
      have hsplit : '/' :: '/' :: (body ++ tail) = comment ++ tail.dropWhile isLineEnd := by
        rw [← h, List.append_assoc, List.takeWhile_append_dropWhile]
        rfl
      rw [hsplit, List.drop_left]
    rw [hdrop]
    refine ⟨body, tail.takeWhile isLineEnd, ⟨fun hc => ?_, fun hc => ?_⟩,
      fun c hc => isLineEnd_iff.mp (List.mem_takeWhile_imp hc),
      by rw [List.takeWhile_append_dropWhile], fun hnone => ?_⟩
    · exact absurd (hbody _ hc) (by decide)
    · exact absurd (hbody _ hc) (by decide)
    · cases tail with
      | nil => rfl
      | cons c tail =>
        have hc := List.head?_dropWhile_not (fun c => !isLineEnd c) (body ++ c :: tail)
        rw [htail] at hc
        rw [List.takeWhile_cons_of_pos (by simpa using hc)] at hnone
        cases hnone
  case h_2 => cases h

/-- Reading on behind a comment. -/
theorem Lexes.of_takeComment? {text comment : List Char} {ts : List Token}
    (hc : takeComment? text = some comment) (h : Lexes (text.drop comment.length) ts)
    (hend : text.drop comment.length = [] → ts = []) : Lexes text ts := by
  obtain ⟨body, ends, hbody, hends, htext, hnone⟩ := exists_of_takeComment? hc
  rw [htext]
  cases ends with
  | nil =>
    rw [hend (hnone rfl)]
    exact .stop _
  | cons stop ends =>
    obtain ⟨hstop, hends⟩ := List.forall_mem_cons.mp hends
    refine Lexes.comment (h.blanks fun c hc => ?_) hbody hstop
    obtain rfl | rfl := hends c hc <;> decide

/-- The tokens that are found are tokens of the text, with nothing but layout between them. -/
theorem lexes_lexemesUpTo (fuel : Nat) (p : Position) (text : List Char) :
    Lexes text ((lexemesUpTo fuel p text).found.map Lexeme.token) := by
  induction fuel generalizing p text with
  | zero => exact .stop _
  | succ fuel ih =>
    cases text with
    | nil => exact .stop _
    | cons c rest =>
      rw [lexemesUpTo]
      split_ifs with hblank
      · exact (ih _ rest).blank hblank
      split
      case h_1 comment hcomment =>
        refine (ih _ _).of_takeComment? hcomment fun hnil => ?_
        rw [hnil]
        cases fuel <;> rfl
      case h_2 =>
        split
        case h_1 => exact .stop _
        case h_2 taken token hpiece =>
          exact .token .nil hpiece (ih _ _)

theorem longer?_eq_some {a b : Option Piece} {p : Piece} (h : longer? a b = some p) :
    a = some p ∨ b = some p := by
  unfold longer? at h
  split at h
  case h_1 =>
    split_ifs at h
    · exact .inl h
    · exact .inr h
  case h_2 => exact .inl h
  case h_3 => exact .inr h

theorem isLiteral_decimalPiece? {text : List Char} {p : Piece} (h : decimalPiece? text = some p) :
    ∃ l, p.2 = .literal l := by
  unfold decimalPiece? at h
  dsimp only at h
  split_ifs at h
  split at h
  all_goals
    obtain rfl := Option.some.inj h
    exact ⟨_, rfl⟩

theorem isLiteral_hexPiece? {text : List Char} {p : Piece} (h : hexPiece? text = some p) :
    ∃ l, p.2 = .literal l := by
  unfold hexPiece? at h
  dsimp only at h
  split at h
  case h_1 =>
    split_ifs at h
    split at h
    all_goals
      obtain rfl := Option.some.inj h
      exact ⟨_, rfl⟩
  case h_2 => cases h

theorem isLiteral_doublePiece? {text : List Char} {p : Piece} (h : doublePiece? text = some p) :
    ∃ l, p.2 = .literal l := by
  unfold doublePiece? at h
  dsimp only at h
  split_ifs at h
  obtain rfl := Option.some.inj h
  exact ⟨_, rfl⟩

theorem isLiteral_stringPiece? {text : List Char} {p : Piece} (h : stringPiece? text = some p) :
    ∃ l, p.2 = .literal l := by
  unfold stringPiece? at h
  split at h
  case h_1 =>
    split_ifs at h
    obtain ⟨content, -, rfl⟩ := Option.map_eq_some_iff.mp h
    exact ⟨_, rfl⟩
  case h_2 => cases h

theorem isLiteral_rawPiece? {text : List Char} {p : Piece} (h : rawPiece? text = some p) :
    ∃ l, p.2 = .literal l := by
  unfold rawPiece? at h
  split at h
  case h_1 =>
    split_ifs at h
    obtain ⟨content, -, rfl⟩ := Option.map_eq_some_iff.mp h
    exact ⟨_, rfl⟩
  case h_2 => cases h

theorem isLiteral_bytesPiece? {text : List Char} {p : Piece} (h : bytesPiece? text = some p) :
    ∃ l, p.2 = .literal l := by
  unfold bytesPiece? at h
  split at h
  case h_1 =>
    split_ifs at h
    obtain ⟨content, -, rfl⟩ := Option.map_eq_some_iff.mp h
    exact ⟨_, rfl⟩
  case h_2 => cases h

theorem exists_of_foldl_longer? {text : List Char} {takes : List (List Char → Option Piece)}
    {best : Option Piece} {p : Piece}
    (h : takes.foldl (fun best take => longer? best (take text)) best = some p) :
    best = some p ∨ ∃ take ∈ takes, take text = some p := by
  induction takes generalizing best with
  | nil => exact .inl h
  | cons take takes ih =>
    obtain h | ⟨take', hmem, h⟩ := ih h
    · obtain h | h := longer?_eq_some h
      · exact .inl h
      · exact .inr ⟨take, List.mem_cons_self, h⟩
    · exact .inr ⟨take', List.mem_cons_of_mem _ hmem, h⟩

/-- What is no literal is a word or a symbol. -/
theorem cases_of_piece? {text : List Char} {p : Piece} (h : piece? text = some p) :
    (∃ l, p.2 = .literal l) ∨ wordPiece? text = some p ∨ symbolPiece? text = some p := by
  obtain h | ⟨take, hmem, h⟩ := exists_of_foldl_longer? h
  · cases h
  simp only [List.mem_cons, List.not_mem_nil, or_false] at hmem
  obtain rfl | rfl | rfl | rfl | rfl | rfl | rfl | rfl := hmem
  · exact .inl (isLiteral_decimalPiece? h)
  · exact .inl (isLiteral_hexPiece? h)
  · exact .inl (isLiteral_doublePiece? h)
  · exact .inl (isLiteral_stringPiece? h)
  · exact .inl (isLiteral_rawPiece? h)
  · exact .inl (isLiteral_bytesPiece? h)
  · exact .inr (.inl h)
  · exact .inr (.inr h)

/-- The one way to write a name, a point or an opening parenthesis. -/
def spelling? : Token → Option (List Char)
  | .identifier x => some x.toList
  | .symbol .dot => some ['.']
  | .symbol .openParen => some ['(']
  | _ => none

theorem eq_of_spelling?_word {name : String} {w : List Char} (h : spelling? (word name) = some w) :
    w = name.toList := by
  unfold word at h
  split at h
  all_goals cases h
  rfl

theorem eq_of_spelling?_single {c : Char} {s : Symbol} {w : List Char}
    (hs : singleSymbol? c = some s) (h : spelling? (.symbol s) = some w) : w = [c] := by
  unfold singleSymbol? at hs
  split at hs
  all_goals cases hs
  all_goals cases h
  all_goals rfl

theorem spelling?_double {c d : Char} {s : Symbol} (hs : doubleSymbol? c d = some s) :
    spelling? (.symbol s) = none := by
  unfold doubleSymbol? at hs
  split at hs
  all_goals cases hs
  all_goals rfl

theorem append_drop_of_wordPiece? {text taken w : List Char} {t : Token}
    (h : wordPiece? text = some (taken, t)) (hw : spelling? t = some w) :
    text = w ++ text.drop taken.length := by
  unfold wordPiece? at h
  split at h
  case h_1 c rest =>
    split_ifs at h
    cases h
    rw [eq_of_spelling?_word hw, String.toList_ofList]
    have hprefix := List.takeWhile_prefix (l := rest) fun c => startsWord c || Decimal.isDigit c
    exact (List.prefix_iff_eq_append.mp ((List.prefix_cons_inj c).mpr hprefix)).symm
  case h_2 => cases h

theorem append_drop_of_symbolPiece? {text taken w : List Char} {t : Token}
    (h : symbolPiece? text = some (taken, t)) (hw : spelling? t = some w) :
    text = w ++ text.drop taken.length := by
  unfold symbolPiece? at h
  split at h
  case h_1 c d rest =>
    split at h
    case h_1 s hdouble =>
      cases h
      rw [spelling?_double hdouble] at hw
      cases hw
    case h_2 =>
      obtain ⟨s, hsingle, he⟩ := Option.map_eq_some_iff.mp h
      cases he
      rw [eq_of_spelling?_single hsingle hw]
      rfl
  case h_2 c =>
    obtain ⟨s, hsingle, he⟩ := Option.map_eq_some_iff.mp h
    cases he
    rw [eq_of_spelling?_single hsingle hw]
    rfl
  case h_3 => cases h

/-- A token with one spelling is taken by just that spelling. -/
theorem append_drop_of_piece? {text taken w : List Char} {t : Token}
    (h : piece? text = some (taken, t)) (hw : spelling? t = some w) :
    text = w ++ text.drop taken.length := by
  obtain ⟨l, rfl⟩ | h | h := cases_of_piece? h
  · cases hw
  · exact append_drop_of_wordPiece? h hw
  · exact append_drop_of_symbolPiece? h hw

theorem exists_of_lexes_cons {text w : List Char} {t : Token} {ts : List Token}
    (h : Lexes text (t :: ts)) (hw : spelling? t = some w) :
    ∃ gap rest, IsLayout gap ∧ text = gap ++ (w ++ rest) ∧ Lexes rest ts := by
  cases h with
  | token hgap hpiece h =>
    exact ⟨_, _, hgap, congrArg (_ ++ ·) (append_drop_of_piece? hpiece hw), h⟩

/-- The tokens behind some others belong to the text behind theirs. -/
theorem exists_of_lexes_append {text : List Char} {us ts : List Token} (h : Lexes text (us ++ ts)) :
    ∃ before rest, text = before ++ rest ∧ Lexes rest ts := by
  induction us generalizing text with
  | nil => exact ⟨[], text, rfl, h⟩
  | cons u us ih =>
    cases h with
    | @token gap text taken _ _ hgap hpiece h =>
      obtain ⟨before, rest, he, h⟩ := ih h
      refine ⟨gap ++ text.take taken.length ++ before, rest, ?_, h⟩
      rw [List.append_assoc, ← he, List.append_assoc, List.take_append_drop]

end ClaimMapping.Expression
