import ClaimMapping.Base64Url
import Mathlib

namespace ClaimMapping.Base64Url

theorem value?_digit {n : Nat} (h : n < 64) : value? (digit n) = some n := by
  have hall : ∀ m < 64, value? (digit m) = some m := by decide
  exact hall n h

theorem ofNat_sub_add {a c : Char} (h : a ≤ c) :
    Char.ofNat (a.toNat + (c.toNat - a.toNat)) = c := by
  have hle : a.toNat ≤ c.toNat := h
  rw [Nat.add_sub_cancel' hle, Char.ofNat_toNat]

theorem eq_digit_of_value? {c : Char} {n : Nat} (h : value? c = some n) : n < 64 ∧ c = digit n := by
  have hle {a b : Char} : a ≤ b ↔ a.toNat ≤ b.toNat := Iff.rfl
  unfold value? at h
  split_ifs at h with hupper hlower hnumber hminus hlow
  · have hr : 65 ≤ c.toNat ∧ c.toNat ≤ 90 := hupper
    cases h
    have hn : c.toNat - 'A'.toNat < 26 := show c.toNat - 65 < 26 by omega
    exact ⟨hn.trans (by decide), by rw [digit, if_pos hn, ofNat_sub_add hupper.1]⟩
  · have hr : 97 ≤ c.toNat ∧ c.toNat ≤ 122 := hlower
    cases h
    have hn : c.toNat - 'a'.toNat < 26 := show c.toNat - 97 < 26 by omega
    refine ⟨by omega, ?_⟩
    rw [digit, if_neg (by omega), if_pos (by omega), Nat.add_sub_cancel, ofNat_sub_add hlower.1]
  · have hr : 48 ≤ c.toNat ∧ c.toNat ≤ 57 := hnumber
    cases h
    have hn : c.toNat - '0'.toNat < 10 := show c.toNat - 48 < 10 by omega
    refine ⟨by omega, ?_⟩
    rw [digit, if_neg (by omega), if_neg (by omega), if_pos (by omega), Nat.add_sub_cancel,
      ofNat_sub_add hnumber.1]
  · cases h
    exact ⟨by decide, hminus⟩
  · cases h
    exact ⟨by decide, hlow⟩

theorem ofNat_eq {n : Nat} {a : UInt8} (h : n = a.toNat) : UInt8.ofNat n = a := by
  rw [h, UInt8.ofNat_toNat]

/-- Bytes are read back from their encoding. -/
theorem decode?_encode (bytes : List UInt8) : decode? (encode bytes) = some bytes := by
  induction bytes using encode.induct with
  | case1 => rfl
  | case2 a =>
    have ha := a.toNat_lt
    have h1 : value? (digit (a.toNat / 4)) = some _ := value?_digit (by omega)
    have h2 : value? (digit (a.toNat % 4 * 16)) = some _ := value?_digit (by omega)
    simp only [encode, decode?, h1, h2, Option.bind_eq_bind, Option.bind_some]
    rw [if_pos (by omega), ofNat_eq (show _ = a.toNat by omega)]
  | case3 a b =>
    have ha := a.toNat_lt
    have hb := b.toNat_lt
    have h1 : value? (digit (a.toNat / 4)) = some _ := value?_digit (by omega)
    have h2 : value? (digit (a.toNat % 4 * 16 + b.toNat / 16)) = some _ := value?_digit (by omega)
    have h3 : value? (digit (b.toNat % 16 * 4)) = some _ := value?_digit (by omega)
    simp only [encode, decode?, h1, h2, h3, Option.bind_eq_bind, Option.bind_some]
    rw [if_pos (by omega), ofNat_eq (show _ = a.toNat by omega),
      ofNat_eq (show _ = b.toNat by omega)]
  | case4 a b c rest ih =>
    have ha := a.toNat_lt
    have hb := b.toNat_lt
    have hc := c.toNat_lt
    have h1 : value? (digit (a.toNat / 4)) = some _ := value?_digit (by omega)
    have h2 : value? (digit (a.toNat % 4 * 16 + b.toNat / 16)) = some _ := value?_digit (by omega)
    have h3 : value? (digit (b.toNat % 16 * 4 + c.toNat / 64)) = some _ := value?_digit (by omega)
    have h4 : value? (digit (c.toNat % 64)) = some _ := value?_digit (by omega)
    simp only [encode, decode?, h1, h2, h3, h4, ih, Option.bind_eq_bind, Option.bind_some]
    rw [ofNat_eq (show _ = a.toNat by omega), ofNat_eq (show _ = b.toNat by omega),
      ofNat_eq (show _ = c.toNat by omega)]
    rfl

/-- No other text is read as these bytes. -/
theorem eq_encode_of_decode? {text : List Char} {bytes : List UInt8}
    (h : decode? text = some bytes) : text = encode bytes := by
  have hbyte {n : Nat} (hn : n < 256) : (UInt8.ofNat n).toNat = n := UInt8.toNat_ofNat_of_lt' hn
  induction text using decode?.induct generalizing bytes with
  | case1 =>
    cases h
    rfl
  | case2 => cases h
  | case3 p q =>
    simp only [decode?, Option.bind_eq_bind, Option.bind_eq_some_iff, Option.ite_none_right_eq_some,
      Option.some.injEq] at h
    -- the unused bits of the last digit are zero, or it would not come back
    obtain ⟨x, hx, y, hy, hzero, rfl⟩ := h
    obtain ⟨hx64, rfl⟩ := eq_digit_of_value? hx
    obtain ⟨hy64, rfl⟩ := eq_digit_of_value? hy
    have hfirst : (x * 4 + y / 16) / 4 = x := by omega
    have hsecond : (x * 4 + y / 16) % 4 * 16 = y := by omega
    rw [encode, hbyte (by omega), hfirst, hsecond]
  | case4 p q r =>
    simp only [decode?, Option.bind_eq_bind, Option.bind_eq_some_iff, Option.ite_none_right_eq_some,
      Option.some.injEq] at h
    obtain ⟨x, hx, y, hy, z, hz, hzero, rfl⟩ := h
    obtain ⟨hx64, rfl⟩ := eq_digit_of_value? hx
    obtain ⟨hy64, rfl⟩ := eq_digit_of_value? hy
    obtain ⟨hz64, rfl⟩ := eq_digit_of_value? hz
    have hfirst : (x * 4 + y / 16) / 4 = x := by omega
    have hsecond : (x * 4 + y / 16) % 4 * 16 + (y % 16 * 16 + z / 4) / 16 = y := by omega
    have hthird : (y % 16 * 16 + z / 4) % 16 * 4 = z := by omega
    rw [encode, hbyte (by omega), hbyte (by omega), hfirst, hsecond, hthird]
  | case5 p q r s rest ih =>
    simp only [decode?, Option.bind_eq_bind, Option.bind_eq_some_iff] at h
    obtain ⟨x, hx, y, hy, z, hz, w, hw, more, hmore, h⟩ := h
    cases h
    obtain ⟨hx64, rfl⟩ := eq_digit_of_value? hx
    obtain ⟨hy64, rfl⟩ := eq_digit_of_value? hy
    obtain ⟨hz64, rfl⟩ := eq_digit_of_value? hz
    obtain ⟨hw64, rfl⟩ := eq_digit_of_value? hw
    have hfirst : (x * 4 + y / 16) / 4 = x := by omega
    have hsecond : (x * 4 + y / 16) % 4 * 16 + (y % 16 * 16 + z / 4) / 16 = y := by omega
    have hthird : (y % 16 * 16 + z / 4) % 16 * 4 + (z % 4 * 64 + w) / 64 = z := by omega
    have hfourth : (z % 4 * 64 + w) % 64 = w := by omega
    rw [encode, hbyte (by omega), hbyte (by omega), hbyte (by omega), hfirst, hsecond, hthird,
      hfourth, ih hmore]

/-- A text gives bytes exactly when it is their encoding, so no two texts give the same bytes. -/
theorem decode?_eq_some_iff {text : List Char} {bytes : List UInt8} :
    decode? text = some bytes ↔ text = encode bytes :=
  ⟨eq_encode_of_decode?, fun h => h ▸ decode?_encode bytes⟩

theorem exists_digit_of_mem_encode {bytes : List UInt8} {c : Char} (h : c ∈ encode bytes) :
    ∃ n < 64, c = digit n := by
  induction bytes using encode.induct with
  | case1 => cases h
  | case2 a =>
    have ha := a.toNat_lt
    simp only [encode, List.mem_cons, List.not_mem_nil, or_false] at h
    rcases h with rfl | rfl
    · exact ⟨_, by omega, rfl⟩
    · exact ⟨_, by omega, rfl⟩
  | case3 a b =>
    have ha := a.toNat_lt
    have hb := b.toNat_lt
    simp only [encode, List.mem_cons, List.not_mem_nil, or_false] at h
    rcases h with rfl | rfl | rfl
    · exact ⟨_, by omega, rfl⟩
    · exact ⟨_, by omega, rfl⟩
    · exact ⟨_, by omega, rfl⟩
  | case4 a b c rest ih =>
    have ha := a.toNat_lt
    have hb := b.toNat_lt
    have hc := c.toNat_lt
    simp only [encode, List.mem_cons] at h
    rcases h with rfl | rfl | rfl | rfl | h
    · exact ⟨_, by omega, rfl⟩
    · exact ⟨_, by omega, rfl⟩
    · exact ⟨_, by omega, rfl⟩
    · exact ⟨_, by omega, rfl⟩
    · exact ih h

end ClaimMapping.Base64Url
