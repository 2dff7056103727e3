import ClaimMapping.Proofs.Decimal.Numeral
import ClaimMapping.Proofs.Expression.Lexing

namespace ClaimMapping.Expression

open Decimal (isDigit takeDigits takeSign)

/-- At most one sign. -/
def IsSign (sign : List Char) : Prop := sign = [] ∨ sign = ['-'] ∨ sign = ['+']

def IsDigits (ds : List Char) : Prop := ∀ c ∈ ds, isDigit c = true

theorem isDigits_takeDigits (text : List Char) : IsDigits (takeDigits text).1 :=
  fun _ h => List.mem_takeWhile_imp h

theorem takeDigits_of_isDigits {ds : List Char} (h : IsDigits ds) : takeDigits ds = (ds, []) := by
  have hend : ∀ c ∈ ([] : List Char).head?, isDigit c = false := fun _ hc => nomatch hc
  have happend := Decimal.takeDigits_append h hend
  rwa [List.append_nil] at happend

theorem takeSign_append {sign text : List Char} (hsign : IsSign sign)
    (htext : ∀ c ∈ text.head?, c ≠ '-' ∧ c ≠ '+') :
    ∃ negative, takeSign (sign ++ text) = (negative, text) := by
  obtain rfl | rfl | rfl := hsign
  · refine ⟨false, ?_⟩
    rw [List.nil_append]
    unfold takeSign
    split
    case h_1 => exact absurd rfl (htext _ rfl).1
    case h_2 => exact absurd rfl (htext _ rfl).2
    case h_3 => rfl
  · exact ⟨true, rfl⟩
  · exact ⟨false, rfl⟩

theorem IsDigits.head_ne_sign {ds : List Char} (h : IsDigits ds) :
    ∀ c ∈ ds.head?, c ≠ '-' ∧ c ≠ '+' := by
  intro c hc
  have hdigit := h c (List.mem_of_mem_head? hc)
  constructor
  · rintro rfl
    exact absurd hdigit (by decide)
  · rintro rfl
    exact absurd hdigit (by decide)

/-- An exponent with its mark. -/
def IsExponent (text : List Char) : Prop :=
  ∃ mark sign ds, (mark = 'e' ∨ mark = 'E') ∧ IsSign sign ∧ IsDigits ds ∧ ds ≠ [] ∧
    text = mark :: (sign ++ ds)

theorem isExponent_takeExponent (text : List Char) :
    takeExponent text = [] ∨ IsExponent (takeExponent text) := by
  have hcases {mark : Char} {sign : List Char} (hsign : IsSign sign) (digits : List Char) :
      let ds := (takeDigits digits).1
      let taken := if (mark = 'e' ∨ mark = 'E') ∧ (!ds.isEmpty) = true then
        mark :: sign ++ ds else []
      taken = [] ∨ IsExponent taken := by
    intro ds taken
    by_cases h : (mark = 'e' ∨ mark = 'E') ∧ (!ds.isEmpty) = true
    · have hne : ds ≠ [] := by simpa using h.2
      right
      exact ⟨mark, sign, ds, h.1, hsign, isDigits_takeDigits digits, hne, if_pos h⟩
    · exact .inl (if_neg h)
  unfold takeExponent
  split
  case h_2 => exact .inl rfl
  case h_1 mark rest =>
    dsimp only
    split
    case h_1 more => exact hcases (.inr (.inl rfl)) more
    case h_2 more => exact hcases (.inr (.inr rfl)) more
    case h_3 => exact hcases (.inl rfl) rest

theorem takeExponent?_of_isExponent {text : List Char} (h : text = [] ∨ IsExponent text) :
    ∃ e, Decimal.takeExponent? text = some (e, []) := by
  obtain rfl | ⟨mark, sign, ds, hmark, hsign, hds, hne, rfl⟩ := h
  · exact ⟨0, rfl⟩
  · obtain ⟨negative, hnegative⟩ := takeSign_append hsign hds.head_ne_sign
    rw [Decimal.takeExponent?, if_pos hmark, hnegative]
    dsimp only
    rw [takeDigits_of_isDigits hds, if_neg (by simpa using hne)]
    exact ⟨_, rfl⟩

/-- A numeral with a point and digits behind it, or with an exponent, or with both. -/
theorem isSome_readFloat? {sign whole fraction exponent : List Char} (hsign : IsSign sign)
    (hwhole : IsDigits whole)
    (hfraction : fraction = [] ∨ ∃ ds, IsDigits ds ∧ ds ≠ [] ∧ fraction = '.' :: ds)
    (hexponent : exponent = [] ∨ IsExponent exponent) (hne : fraction = [] → whole ≠ []) :
    (Decimal.readFloat? (sign ++ (whole ++ (fraction ++ exponent)))).isSome = true := by
  have hmark : ∀ c ∈ exponent.head?, c = 'e' ∨ c = 'E' := by
    intro c hc
    obtain rfl | ⟨mark, _, _, h, -, -, -, rfl⟩ := hexponent
    · cases hc
    · cases hc
      exact h
  have hbehind : ∀ c ∈ (fraction ++ exponent).head?, c = '.' ∨ c = 'e' ∨ c = 'E' := by
    intro c hc
    obtain rfl | ⟨ds, -, -, rfl⟩ := hfraction
    · exact .inr (hmark c hc)
    · cases hc
      exact .inl rfl
  have hdigits : takeDigits (whole ++ (fraction ++ exponent)) = (whole, fraction ++ exponent) := by
    refine Decimal.takeDigits_append hwhole fun c hc => ?_
    obtain rfl | rfl | rfl := hbehind c hc <;> decide
  have hhead : ∀ c ∈ (whole ++ (fraction ++ exponent)).head?, c ≠ '-' ∧ c ≠ '+' := by
    intro c hc
    cases whole with
    | nil => obtain rfl | rfl | rfl := hbehind c hc <;> decide
    | cons d whole => exact hwhole.head_ne_sign c hc
  obtain ⟨negative, hnegative⟩ := takeSign_append hsign hhead
  obtain ⟨e, he⟩ := takeExponent?_of_isExponent hexponent
  have hunsigned : ∃ x, Decimal.takeUnsigned? (whole ++ (fraction ++ exponent)) = some (x, []) := by
    rw [Decimal.takeUnsigned?, hdigits]
    dsimp only
    obtain rfl | ⟨ds, hds, hdsne, rfl⟩ := hfraction
    · rw [List.nil_append]
      split
      case h_1 =>
        obtain h | h := hmark '.' rfl <;> cases h
      case h_2 =>
        rw [if_neg (by simpa using hne rfl), he]
        exact ⟨_, rfl⟩
    · have htail : takeDigits (ds ++ exponent) = (ds, exponent) := by
        refine Decimal.takeDigits_append hds fun c hc => ?_
        obtain rfl | rfl := hmark c hc <;> decide
      rw [List.cons_append]
      split
      case h_1 heq =>
        cases heq
        rw [htail, if_neg (by simp [hdsne]), he]
        exact ⟨_, rfl⟩
      case h_2 h => exact absurd rfl (h _)
  obtain ⟨x, hx⟩ := hunsigned
  rw [Decimal.readFloat?, hnegative]
  dsimp only
  rw [hx]
  rfl

/-- Digits of a numeral with their value. -/
inductive Numeral : List Char → Nat → Prop
  | decimal {ds : List Char} (hds : IsDigits ds) (hne : ds ≠ []) : Numeral ds (Decimal.natValue ds)
  | hex {x : Char} {ds : List Char} (hx : x = 'x' ∨ x = 'X')
      (hds : ∀ c ∈ ds, Decimal.isHexDigit c = true) (hne : ds ≠ []) :
      Numeral ('0' :: x :: ds) (Decimal.hexNumber ds)

/-- Among the escapes there is a backslash at the end, or one that stands for nothing. -/
inductive HasBadEscape {α : Type} (escape : Char → List Char → Option (α × List Char)) :
    List Char → Prop
  | here {rest : List Char} (h : ∀ c more, rest = c :: more → escape c more = none) :
      HasBadEscape escape ('\\' :: rest)
  | behindEscape {c : Char} {rest more : List Char} {a : α} (hc : escape c rest = some (a, more))
      (h : HasBadEscape escape more) : HasBadEscape escape ('\\' :: c :: rest)
  | behindChar {c : Char} {rest : List Char} (hc : c ≠ '\\') (h : HasBadEscape escape rest) :
      HasBadEscape escape (c :: rest)

/-- The escapes of byte literals. -/
def takeByteEscape? (c : Char) (rest : List Char) : Option (Nat × List Char) :=
  if c = 'x' then takeHex? 2 rest else takeOctal? c rest

/-- The texts of literals that have no value. -/
inductive Valueless : List Char → Prop
  | tooLarge {ds : List Char} {n : Nat} (h : Numeral ds n) (hn : 2 ^ 63 ≤ n) : Valueless ds
  | tooSmall {ds : List Char} {n : Nat} (h : Numeral ds n) (hn : 2 ^ 63 < n) : Valueless ('-' :: ds)
  | unsigned {ds : List Char} {n : Nat} {u : Char} (h : Numeral ds n) (hu : u = 'u' ∨ u = 'U')
      (hn : 2 ^ 64 ≤ n) : Valueless (ds ++ [u])
  /-- An unsigned numeral has no sign. -/
  | negative {ds : List Char} {n : Nat} {u : Char} (h : Numeral ds n) (hu : u = 'u' ∨ u = 'U') :
      Valueless ('-' :: (ds ++ [u]))
  | string {quote : Char} {content : List Char} (hquote : isQuote quote = true)
      (h : HasBadEscape (takeEscape? quote) content) : Valueless (quote :: content ++ [quote])
  | bytes {b quote : Char} {content : List Char} (hb : b = 'b' ∨ b = 'B')
      (hquote : isQuote quote = true) (h : HasBadEscape takeByteEscape? content) :
      Valueless (b :: quote :: content ++ [quote])

theorem intLiteral_eq_none {negative : Bool} {n : Nat} (h : intLiteral negative n = none) :
    if negative then 2 ^ 63 < n else 2 ^ 63 ≤ n := by
  unfold intLiteral at h
  dsimp only at h
  cases negative with
  | true =>
    rw [if_pos rfl] at h ⊢
    split_ifs at h with hrange
    omega
  | false =>
    rw [if_neg Bool.false_ne_true] at h ⊢
    split_ifs at h with hrange
    omega

theorem uintLiteral_eq_none {negative : Bool} {n : Nat} (h : uintLiteral negative n = none) :
    negative = true ∨ 2 ^ 64 ≤ n := by
  unfold uintLiteral at h
  split_ifs at h with hrange
  cases negative with
  | true => exact .inl rfl
  | false =>
    right
    simp at hrange
    omega

theorem exists_takeMinus (text : List Char) :
    ∃ sign rest, (sign = [] ∨ sign = ['-']) ∧ takeMinus text = (sign, rest) := by
  unfold takeMinus
  split
  · exact ⟨_, _, .inr rfl, rfl⟩
  · exact ⟨_, _, .inl rfl, rfl⟩

/-- An integer numeral behind its sign. -/
theorem valueless_of_numeral {sign ds : List Char} {n : Nat} (hsign : sign = [] ∨ sign = ['-'])
    (hn : Numeral ds n) :
    (intLiteral (!sign.isEmpty) n = none → Valueless (sign ++ ds)) ∧
      ∀ u, u = 'u' ∨ u = 'U' → uintLiteral (!sign.isEmpty) n = none →
        Valueless (sign ++ (ds ++ [u])) := by
  obtain rfl | rfl := hsign
  · exact ⟨fun h => .tooLarge hn (intLiteral_eq_none h), fun u hu h =>
      .unsigned hn hu ((uintLiteral_eq_none h).resolve_left Bool.false_ne_true)⟩
  · exact ⟨fun h => .tooSmall hn (intLiteral_eq_none h), fun u hu _ => .negative hn hu⟩

theorem valueless_of_decimalPiece? {text taken : List Char}
    (h : decimalPiece? text = some (taken, .literal none)) : Valueless taken := by
  unfold decimalPiece? at h
  obtain ⟨sign, rest, hsign, htake⟩ := exists_takeMinus text
  rw [htake] at h
  have hds := isDigits_takeDigits rest
  dsimp only at h
  split_ifs at h with hempty
  have hvalueless := valueless_of_numeral hsign (.decimal hds (by simpa using hempty))
  split at h
  case h_1 =>
    obtain ⟨rfl, hl⟩ := Prod.mk.inj (Option.some.inj h)
    exact hvalueless.2 'u' (.inl rfl) (Token.literal.inj hl)
  case h_2 =>
    obtain ⟨rfl, hl⟩ := Prod.mk.inj (Option.some.inj h)
    exact hvalueless.2 'U' (.inr rfl) (Token.literal.inj hl)
  case h_3 =>
    obtain ⟨rfl, hl⟩ := Prod.mk.inj (Option.some.inj h)
    exact hvalueless.1 (Token.literal.inj hl)

theorem valueless_of_hexPiece? {text taken : List Char}
    (h : hexPiece? text = some (taken, .literal none)) : Valueless taken := by
  unfold hexPiece? at h
  obtain ⟨sign, rest, hsign, htake⟩ := exists_takeMinus text
  rw [htake] at h
  dsimp only at h
  split at h
  case h_2 => cases h
  case h_1 x rest =>
    split_ifs at h with hx
    obtain ⟨hx, hne⟩ := hx
    have hds : ∀ c ∈ rest.takeWhile Decimal.isHexDigit, Decimal.isHexDigit c = true :=
      fun c hc => List.mem_takeWhile_imp hc
    have hvalueless := valueless_of_numeral hsign (.hex hx hds (by simpa using hne))
    split at h
    case h_1 =>
      obtain ⟨rfl, hl⟩ := Prod.mk.inj (Option.some.inj h)
      simpa using hvalueless.2 'u' (.inl rfl) (Token.literal.inj hl)
    case h_2 =>
      obtain ⟨rfl, hl⟩ := Prod.mk.inj (Option.some.inj h)
      simpa using hvalueless.2 'U' (.inr rfl) (Token.literal.inj hl)
    case h_3 =>
      obtain ⟨rfl, hl⟩ := Prod.mk.inj (Option.some.inj h)
      exact hvalueless.1 (Token.literal.inj hl)

/-- A numeral with a point or an exponent always has a value. -/
theorem doublePiece?_ne_none {text taken : List Char} :
    doublePiece? text ≠ some (taken, .literal none) := by
  intro h
  unfold doublePiece? at h
  dsimp only at h
  split_ifs at h with hnone
  obtain ⟨-, hl⟩ := Prod.mk.inj (Option.some.inj h)
  have hl := Option.map_eq_none_iff.mp (Token.literal.inj hl)
  rw [List.append_assoc, List.append_assoc] at hl
  refine absurd hl (Option.ne_none_iff_isSome.mpr
    (isSome_readFloat? ?_ (isDigits_takeDigits _) ?_ (isExponent_takeExponent _) ?_))
  · split
    · exact .inr (.inl rfl)
    · exact .inr (.inr rfl)
    · exact .inl rfl
  · split
    case h_1 more _ =>
      by_cases hempty : (takeDigits more).1.isEmpty = true
      · exact .inl (if_pos hempty)
      · exact .inr ⟨_, isDigits_takeDigits more, by simpa using hempty, if_neg hempty⟩
    case h_2 => exact .inl rfl
  · intro hfraction hwhole
    exact hnone (by rw [hfraction, hwhole]; rfl)

theorem length_of_takeHex? {count n : Nat} {text more : List Char}
    (h : takeHex? count text = some (n, more)) : more.length ≤ text.length := by
  unfold takeHex? at h
  dsimp only at h
  split_ifs at h
  obtain ⟨n', -, h⟩ := Option.bind_eq_some_iff.mp h
  cases h
  simp

theorem length_of_takeOctal? {first : Char} {n : Nat} {text more : List Char}
    (h : takeOctal? first text = some (n, more)) : more.length ≤ text.length := by
  unfold takeOctal? at h
  split at h
  case h_1 =>
    split_ifs at h
    cases h
    exact (Nat.le_succ _).trans (Nat.le_succ _)
  case h_2 => cases h

theorem length_of_takeByteEscape? {c : Char} {n : Nat} {text more : List Char}
    (h : takeByteEscape? c text = some (n, more)) : more.length ≤ text.length := by
  unfold takeByteEscape? at h
  split_ifs at h
  · exact length_of_takeHex? h
  · exact length_of_takeOctal? h

theorem length_of_takeEscape? {quote c : Char} {text chars more : List Char}
    (h : takeEscape? quote c text = some (chars, more)) : more.length ≤ text.length := by
  unfold takeEscape? at h
  split at h
  case h_1 =>
    cases h
    exact le_refl _
  case h_2 =>
    by_cases hquote : c = '\'' ∨ c = '"'
    · rw [if_pos hquote] at h
      cases h
      exact le_refl _
    rw [if_neg hquote] at h
    dsimp only at h
    obtain ⟨⟨n, rest⟩, hn, h⟩ := Option.bind_eq_some_iff.mp h
    obtain ⟨x, -, h⟩ := Option.bind_eq_some_iff.mp h
    cases h
    split_ifs at hn
    · exact length_of_takeHex? hn
    · exact length_of_takeHex? hn
    · exact length_of_takeHex? hn
    · exact length_of_takeOctal? hn

/-- A scan fails only at an escape. -/
theorem hasBadEscape_of_scan {α β : Type} {scan : Nat → List Char → Option β}
    {escape : Char → List Char → Option (α × List Char)} (hnil : ∀ fuel, scan fuel [] ≠ none)
    (hescape : ∀ fuel c rest, scan (fuel + 1) ('\\' :: c :: rest) = none →
      escape c rest = none ∨ ∃ a more, escape c rest = some (a, more) ∧ scan fuel more = none)
    (hchar : ∀ fuel c rest, c ≠ '\\' → scan (fuel + 1) (c :: rest) = none → scan fuel rest = none)
    (hlength : ∀ {c rest a more}, escape c rest = some (a, more) → more.length ≤ rest.length)
    {fuel : Nat} {content : List Char} (hfuel : content.length ≤ fuel)
    (h : scan fuel content = none) : HasBadEscape escape content := by
  induction fuel generalizing content with
  | zero =>
    rw [List.eq_nil_of_length_eq_zero (Nat.le_zero.mp hfuel)] at h
    exact absurd h (hnil 0)
  | succ fuel ih =>
    cases content with
    | nil => exact absurd h (hnil _)
    | cons c rest =>
      rw [List.length_cons] at hfuel
      by_cases hc : c = '\\'
      · subst hc
        cases rest with
        | nil => exact .here nofun
        | cons c rest =>
          obtain hnone | ⟨a, more, hsome, hmore⟩ := hescape fuel c rest h
          · refine .here fun c' more hcons => ?_
            cases hcons
            exact hnone
          · rw [List.length_cons] at hfuel
            have hshorter := hlength hsome
            exact .behindEscape hsome (ih (by omega) hmore)
      · exact .behindChar hc (ih (Nat.le_of_succ_le_succ hfuel) (hchar fuel c rest hc h))

theorem hasBadEscape_of_quotedContent? {quote : Char} {content : List Char}
    (h : quotedContent? quote content.length content = none) :
    HasBadEscape (takeEscape? quote) content := by
  refine hasBadEscape_of_scan ?_ ?_ ?_ length_of_takeEscape? le_rfl h
  · intro fuel
    cases fuel <;> exact nofun
  · intro fuel c rest h
    rw [quotedContent?] at h
    cases hc : takeEscape? quote c rest with
    | none => exact .inl rfl
    | some found =>
      rw [hc] at h
      refine .inr ⟨found.1, found.2, rfl, ?_⟩
      cases htext : quotedContent? quote fuel found.2 with
      | none => rfl
      | some text =>
        dsimp only [bind, Option.bind] at h
        rw [htext] at h
        cases h
  · intro fuel c rest hc h
    rw [quotedContent?] at h
    · exact Option.map_eq_none_iff.mp h
    · exact fun _ _ he => absurd he hc
    · exact fun he => absurd he hc

theorem bytesContent?_escape (fuel : Nat) (c : Char) (rest : List Char) :
    bytesContent? (fuel + 1) ('\\' :: c :: rest) = takeByteEscape? c rest >>= fun found =>
      bytesContent? fuel found.2 >>= fun bytes => some (UInt8.ofNat found.1 :: bytes) := by
  rw [bytesContent?, takeByteEscape?]
  split_ifs <;> rfl

theorem hasBadEscape_of_bytesContent? {content : List Char}
    (h : bytesContent? content.length content = none) : HasBadEscape takeByteEscape? content := by
  refine hasBadEscape_of_scan ?_ ?_ ?_ length_of_takeByteEscape? le_rfl h
  · intro fuel
    cases fuel <;> exact nofun
  · intro fuel c rest h
    rw [bytesContent?_escape] at h
    cases hc : takeByteEscape? c rest with
    | none => exact .inl rfl
    | some found =>
      rw [hc] at h
      refine .inr ⟨found.1, found.2, rfl, ?_⟩
      cases hbytes : bytesContent? fuel found.2 with
      | none => rfl
      | some bytes =>
        dsimp only [bind, Option.bind] at h
        rw [hbytes] at h
        cases h
  · intro fuel c rest hc h
    rw [bytesContent?] at h
    · exact Option.map_eq_none_iff.mp h
    · exact fun _ _ he => absurd he hc
    · exact fun he => absurd he hc

theorem valueless_of_stringPiece? {text taken : List Char}
    (h : stringPiece? text = some (taken, .literal none)) : Valueless taken := by
  unfold stringPiece? at h
  split at h
  case h_2 => cases h
  case h_1 quote rest =>
    split_ifs at h with hquote
    obtain ⟨content, -, he⟩ := Option.map_eq_some_iff.mp h
    obtain ⟨rfl, hl⟩ := Prod.mk.inj he
    have hnone := Option.map_eq_none_iff.mp (Token.literal.inj hl)
    exact .string hquote (hasBadEscape_of_quotedContent? hnone)

theorem rawPiece?_ne_none {text taken : List Char} :
    rawPiece? text ≠ some (taken, .literal none) := by
  intro h
  unfold rawPiece? at h
  split at h
  case h_2 => cases h
  case h_1 =>
    split_ifs at h
    obtain ⟨content, -, he⟩ := Option.map_eq_some_iff.mp h
    cases he

theorem valueless_of_bytesPiece? {text taken : List Char}
    (h : bytesPiece? text = some (taken, .literal none)) : Valueless taken := by
  unfold bytesPiece? at h
  split at h
  case h_2 => cases h
  case h_1 b quote rest =>
    split_ifs at h with hb
    obtain ⟨content, -, he⟩ := Option.map_eq_some_iff.mp h
    obtain ⟨rfl, hl⟩ := Prod.mk.inj he
    have hnone := Option.map_eq_none_iff.mp (Token.literal.inj hl)
    exact .bytes hb.1 hb.2 (hasBadEscape_of_bytesContent? hnone)

theorem wordPiece?_ne_none {text taken : List Char} :
    wordPiece? text ≠ some (taken, .literal none) := by
  intro h
  unfold wordPiece? at h
  split at h
  case h_2 => cases h
  case h_1 =>
    split_ifs at h
    obtain ⟨-, hw⟩ := Prod.mk.inj (Option.some.inj h)
    unfold word at hw
    split at hw
    all_goals cases hw

theorem symbolPiece?_ne_none {text taken : List Char} :
    symbolPiece? text ≠ some (taken, .literal none) := by
  intro h
  unfold symbolPiece? at h
  split at h
  case h_1 =>
    split at h
    · cases h
    · obtain ⟨s, -, he⟩ := Option.map_eq_some_iff.mp h
      cases he
  case h_2 =>
    obtain ⟨s, -, he⟩ := Option.map_eq_some_iff.mp h
    cases he
  case h_3 => cases h

/-- Only numbers out of range and quotes with a bad escape are literals without a value. -/
theorem valueless_of_piece? {text taken : List Char}
    (h : piece? text = some (taken, .literal none)) : Valueless taken := by
  obtain h | ⟨take, hmem, h⟩ := exists_of_foldl_longer? h
  · cases h
  simp only [List.mem_cons, List.not_mem_nil, or_false] at hmem
  obtain rfl | rfl | rfl | rfl | rfl | rfl | rfl | rfl := hmem
  · exact valueless_of_decimalPiece? h
  · exact valueless_of_hexPiece? h
  · exact absurd h doublePiece?_ne_none
  · exact valueless_of_stringPiece? h
  · exact absurd h rawPiece?_ne_none
  · exact valueless_of_bytesPiece? h
  · exact absurd h wordPiece?_ne_none
  · exact absurd h symbolPiece?_ne_none

/-- A token is the longest one that some text begins with. -/
theorem exists_piece?_of_mem_lexemesUpTo {fuel : Nat} {p : Position} {text : List Char} {t : Lexeme}
    (h : t ∈ (lexemesUpTo fuel p text).found) : ∃ rest, piece? rest = some (t.text, t.token) := by
  induction fuel generalizing p text with
  | zero => cases h
  | succ fuel ih =>
    cases text with
    | nil => cases h
    | cons c rest =>
      rw [lexemesUpTo] at h
      split_ifs at h with hblank
      · exact ih h
      split at h
      case h_1 => exact ih h
      case h_2 =>
        split at h
        case h_1 => cases h
        case h_2 taken token hpiece =>
          obtain rfl | h := List.mem_cons.mp h
          · exact ⟨_, hpiece⟩
          · exact ih h

/-- Every literal without a value in a text is a number out of range or a quote with a bad
escape. -/
theorem valueless_of_mem_lexemes {text : List Char} {t : Lexeme} (h : t ∈ (lexemes text).found)
    (ht : t.token = .literal none) : Valueless t.text := by
  obtain ⟨rest, hpiece⟩ := exists_piece?_of_mem_lexemesUpTo h
  exact valueless_of_piece? (ht ▸ hpiece)

end ClaimMapping.Expression
