import ClaimMapping.Json.Token
import ClaimMapping.Proofs.Json.Number

namespace ClaimMapping.Json

variable {more : List Char}

theorem hexValue?_hexDigit {n : Nat} (h : n < 16) :
    Decimal.hexValue? (Text.hexDigit n) = some n := by
  have hall : ∀ m < 16, Decimal.hexValue? (Text.hexDigit m) = some m := by decide
  exact hall n h

theorem takeEscape?_control {c : Char} (h : c.toNat < 0x20) (rest : List Char) :
    takeEscape? ('u' :: '0' :: '0' :: Text.hexDigit (c.toNat / 16) ::
      Text.hexDigit (c.toNat % 16) :: rest) = some (c, rest) := by
  have hunit : takeUnit? ('0' :: '0' :: Text.hexDigit (c.toNat / 16) ::
      Text.hexDigit (c.toNat % 16) :: rest) = some (c.toNat, rest) := by
    have h0 : Decimal.hexValue? '0' = some 0 := rfl
    have hs : 4096 * 0 + 256 * 0 + 16 * (c.toNat / 16) + c.toNat % 16 = c.toNat := by omega
    simp only [takeUnit?, h0, hexValue?_hexDigit (show c.toNat / 16 < 16 by omega),
      hexValue?_hexDigit (show c.toNat % 16 < 16 by omega), Option.bind_eq_bind,
      Option.bind_some, hs]
    rfl
  rw [takeEscape?, hunit]
  dsimp only [Option.bind_eq_bind, Option.bind_some]
  rw [if_neg (by omega), if_neg (by omega), Char.ofNat_toNat]
  rfl

theorem takeString?_backslash {text rest : List Char} {c : Char}
    (h : takeEscape? text = some (c, rest)) (fuel : Nat) :
    takeString? (fuel + 1) ('\\' :: text) =
      (takeString? fuel rest).map fun (text, rest) => (c :: text, rest) := by
  rw [takeString?, h]
  dsimp only [Option.bind_eq_bind, Option.bind_some]
  cases takeString? fuel rest <;> rfl

theorem takeString?_plain {c : Char} (hq : c ≠ '"') (hb : c ≠ '\\') (hc : ¬ c.toNat < 0x20)
    (fuel : Nat) (rest : List Char) :
    takeString? (fuel + 1) (c :: rest) =
      (takeString? fuel rest).map fun (text, rest) => (c :: text, rest) := by
  rw [takeString?.eq_def]
  split
  case h_5 n c' rest' _ _ hn htext =>
    cases hn
    cases htext
    rw [if_neg hc]
    dsimp only [Option.bind_eq_bind]
    cases takeString? fuel rest <;> rfl
  case h_1 h => cases h
  case h_2 h _ => cases h
  case h_3 h _ => exact absurd (List.cons.inj h).1 hq
  case h_4 h => exact absurd (List.cons.inj h).1 hb

/-- A character that is written in a string is read as itself, escaped or not. -/
theorem takeString?_escapeChar (c : Char) (fuel : Nat) (rest : List Char) :
    takeString? (fuel + 1) (escapeChar c ++ rest) =
      (takeString? fuel rest).map fun (text, rest) => (c :: text, rest) := by
  unfold escapeChar
  split_ifs with hq hb hn hr ht hbs hff hc
  · subst hq
    exact takeString?_backslash rfl fuel
  · subst hb
    exact takeString?_backslash rfl fuel
  · subst hn
    exact takeString?_backslash rfl fuel
  · subst hr
    exact takeString?_backslash rfl fuel
  · subst ht
    exact takeString?_backslash rfl fuel
  · subst hbs
    exact takeString?_backslash rfl fuel
  · subst hff
    exact takeString?_backslash rfl fuel
  · exact takeString?_backslash (takeEscape?_control hc rest) fuel
  · exact takeString?_plain hq hb hc fuel rest

/-- A written string is read back. -/
theorem takeString?_escaped {text : List Char} {fuel : Nat} (h : text.length < fuel)
    (rest : List Char) :
    takeString? fuel (text.flatMap escapeChar ++ '"' :: rest) = some (text, rest) := by
  induction text generalizing fuel with
  | nil =>
    obtain ⟨fuel, rfl⟩ : ∃ n, fuel = n + 1 := ⟨fuel - 1, by omega⟩
    rfl
  | cons c text ih =>
    obtain ⟨fuel, rfl⟩ : ∃ n, fuel = n + 1 := ⟨fuel - 1, by omega⟩
    rw [List.length_cons] at h
    rw [List.flatMap_cons, List.append_assoc, takeString?_escapeChar, ih (by omega)]
    rfl

theorem length_le_length_flatMap_escapeChar (text : List Char) :
    text.length ≤ (text.flatMap escapeChar).length := by
  induction text with
  | nil => exact Nat.zero_le _
  | cons c text ih =>
    have hc : 1 ≤ (escapeChar c).length := by
      unfold escapeChar
      split_ifs <;> simp
    rw [List.flatMap_cons, List.length_append, List.length_cons]
    omega

/-- A written string in front of other text gives its token and leaves the other text. -/
theorem takeToken?_stringText (s : String) (rest : List Char) :
    takeToken? (stringText s ++ rest) = some (.string s, rest) := by
  have htext : stringText s ++ rest = '"' :: (s.toList.flatMap escapeChar ++ '"' :: rest) := by
    rw [stringText, List.cons_append, List.append_assoc]
    rfl
  have hfuel : s.toList.length < (s.toList.flatMap escapeChar ++ '"' :: rest).length + 1 := by
    have hlength := length_le_length_flatMap_escapeChar s.toList
    rw [List.length_append]
    omega
  rw [htext, takeToken?, takeString?_escaped hfuel, Option.map_some]
  dsimp only
  rw [String.ofList_toList]

theorem takeToken?_of_number {text rest : List Char} {n : Number}
    (h : takeNumber? text = some (n, rest)) : takeToken? text = some (.number n, rest) := by
  unfold takeToken?
  split
  case h_11 =>
    rw [h]
    rfl
  all_goals cases h

theorem takeNumber?_of_token {text rest : List Char} {n : Number}
    (h : takeToken? text = some (.number n, rest)) : takeNumber? text = some (n, rest) := by
  unfold takeToken? at h
  split at h
  case h_11 =>
    obtain ⟨⟨n', rest'⟩, hn, he⟩ := Option.map_eq_some_iff.mp h
    cases he
    exact hn
  case h_10 =>
    obtain ⟨⟨s, rest'⟩, -, he⟩ := Option.map_eq_some_iff.mp h
    cases he
  all_goals cases h

/-- More fuel gives the same tokens. -/
theorem tokensUpTo_mono {n m : Nat} (hnm : n ≤ m) {text : List Char} {ts : List Token}
    (h : tokensUpTo n text = some ts) : tokensUpTo m text = some ts := by
  induction n generalizing m text ts with
  | zero =>
    cases text with
    | nil =>
      cases h
      cases m <;> rfl
    | cons => cases h
  | succ n ih =>
    obtain ⟨m, rfl⟩ : ∃ k, m = k + 1 := ⟨m - 1, by omega⟩
    cases text with
    | nil => exact h
    | cons c text =>
      simp only [tokensUpTo] at h ⊢
      split_ifs at h ⊢
      · exact ih (by omega) h
      · obtain ⟨⟨token, rest⟩, ht, h⟩ := Option.bind_eq_some_iff.mp h
        obtain ⟨ts', hts, h⟩ := Option.bind_eq_some_iff.mp h
        refine Option.bind_eq_some_iff.mpr ⟨_, ht, Option.bind_eq_some_iff.mpr ⟨ts', ?_, h⟩⟩
        exact ih (by omega) hts

theorem not_isSpace_of_takeToken? {c : Char} {text rest : List Char} {token : Token}
    (h : takeToken? (c :: text) = some (token, rest)) : isSpace c = false := by
  by_contra hc
  rw [Bool.not_eq_false, isSpace] at hc
  simp only [Bool.or_eq_true, beq_iff_eq] at hc
  obtain ((rfl | rfl) | rfl) | rfl := hc <;> cases h

/-- A piece that gives a token, in front of text that gives tokens. -/
theorem tokensUpTo_append {n : Nat} {piece : List Char} (hp : piece ≠ []) {token : Token}
    (ht : takeToken? (piece ++ more) = some (token, more)) {ts : List Token}
    (h : tokensUpTo n more = some ts) :
    tokensUpTo (n + piece.length) (piece ++ more) = some (token :: ts) := by
  obtain ⟨c, text, rfl⟩ := List.exists_cons_of_ne_nil hp
  rw [List.cons_append] at ht ⊢
  rw [List.length_cons, ← Nat.add_assoc, tokensUpTo, not_isSpace_of_takeToken? ht,
    if_neg Bool.false_ne_true, ht]
  dsimp only [Option.bind_eq_bind, Option.bind_some]
  rw [tokensUpTo_mono (Nat.le_add_right n text.length) h]
  rfl

end ClaimMapping.Json
