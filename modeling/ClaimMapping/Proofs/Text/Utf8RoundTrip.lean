import ClaimMapping.Proofs.Text.Utf8

namespace ClaimMapping.Text.Utf8

section

variable {a b c d low high : Nat}

theorem le_of_lead? {found : Nat × Nat × Nat} (h : lead? a = some found) : 0xC2 ≤ a := by
  unfold lead? at h
  split_ifs at h <;> omega

theorem decodeChar?_one (ha : a < 0x80) (rest : List UInt8) :
    decodeChar? (.ofNat a :: rest) = some (Char.ofNat a, rest) := by
  have hbytea : (UInt8.ofNat a).toNat = a := UInt8.toNat_ofNat_of_lt' (ha.trans (by decide))
  simp only [decodeChar?.eq_def, hbytea, if_pos ha]

theorem decodeChar?_two (ha : a < 256) (hb : b < 256) (hlead : lead? a = some (1, low, high))
    (hrange : low ≤ b ∧ b ≤ high) (rest : List UInt8) :
    decodeChar? (.ofNat a :: .ofNat b :: rest) =
      some (Char.ofNat (a % 32 * 64 + b % 64), rest) := by
  have hbytea : (UInt8.ofNat a).toNat = a := UInt8.toNat_ofNat_of_lt' ha
  have hbyteb : (UInt8.ofNat b).toNat = b := UInt8.toNat_ofNat_of_lt' hb
  have hlarge : ¬ a < 0x80 := by
    have := le_of_lead? hlead
    omega
  simp only [decodeChar?.eq_def, hbytea, hbyteb, if_neg hlarge, hlead, if_pos hrange]

theorem isTail_iff : isTail b = true ↔ 0x80 ≤ b ∧ b ≤ 0xBF := by simp [isTail]

theorem decodeChar?_three (ha : a < 256) (hb : b < 256) (hc : isTail c)
    (hlead : lead? a = some (2, low, high)) (hrange : low ≤ b ∧ b ≤ high) (rest : List UInt8) :
    decodeChar? (.ofNat a :: .ofNat b :: .ofNat c :: rest) =
      some (Char.ofNat (a % 16 * 4096 + b % 64 * 64 + c % 64), rest) := by
  have hbytea : (UInt8.ofNat a).toNat = a := UInt8.toNat_ofNat_of_lt' ha
  have hbyteb : (UInt8.ofNat b).toNat = b := UInt8.toNat_ofNat_of_lt' hb
  have hbytec : (UInt8.ofNat c).toNat = c :=
    UInt8.toNat_ofNat_of_lt' ((isTail_iff.mp hc).2.trans_lt (by decide))
  have hlarge : ¬ a < 0x80 := by
    have := le_of_lead? hlead
    omega
  simp only [decodeChar?.eq_def, hbytea, hbyteb, hbytec, if_neg hlarge, hlead]
  rw [if_pos ⟨hrange.1, hrange.2, hc⟩]

theorem decodeChar?_four (ha : a < 256) (hb : b < 256) (hc : isTail c) (hd : isTail d)
    (hlead : lead? a = some (3, low, high)) (hrange : low ≤ b ∧ b ≤ high) (rest : List UInt8) :
    decodeChar? (.ofNat a :: .ofNat b :: .ofNat c :: .ofNat d :: rest) =
      some (Char.ofNat (a % 8 * 262144 + b % 64 * 4096 + c % 64 * 64 + d % 64), rest) := by
  have hbytea : (UInt8.ofNat a).toNat = a := UInt8.toNat_ofNat_of_lt' ha
  have hbyteb : (UInt8.ofNat b).toNat = b := UInt8.toNat_ofNat_of_lt' hb
  have hbytec : (UInt8.ofNat c).toNat = c :=
    UInt8.toNat_ofNat_of_lt' ((isTail_iff.mp hc).2.trans_lt (by decide))
  have hbyted : (UInt8.ofNat d).toNat = d :=
    UInt8.toNat_ofNat_of_lt' ((isTail_iff.mp hd).2.trans_lt (by decide))
  have hlarge : ¬ a < 0x80 := by
    have := le_of_lead? hlead
    omega
  simp only [decodeChar?.eq_def, hbytea, hbyteb, hbytec, hbyted, if_neg hlarge, hlead]
  rw [if_pos ⟨hrange.1, hrange.2, hc, hd⟩]

end

theorem toNat_not_surrogate (c : Char) : c.toNat < 0xD800 ∨ 0xDFFF < c.toNat := by
  rcases c.valid with h | h
  · exact .inl h
  · exact .inr h.1

theorem isTail_add_mod (n : Nat) : isTail (0x80 + n % 64) = true := by
  rw [isTail_iff]
  omega

/-- The bytes of a character are read as that character, whatever follows them. -/
theorem decodeChar?_encodeChar (c : Char) (rest : List UInt8) :
    decodeChar? (encodeChar c ++ rest) = some (c, rest) := by
  have hc := toNat_lt c
  have hs := toNat_not_surrogate c
  simp only [encodeChar]
  by_cases h1 : c.toNat < 0x80
  · rw [if_pos h1, List.singleton_append, decodeChar?_one h1, Char.ofNat_toNat]
  rw [if_neg h1]
  by_cases h2 : c.toNat < 0x800
  · have hlead : lead? (0xC0 + c.toNat / 64) = some (1, 0x80, 0xBF) := by
      rw [lead?, if_pos (by omega)]
    have hvalue : (0xC0 + c.toNat / 64) % 32 * 64 + (0x80 + c.toNat % 64) % 64 = c.toNat := by omega
    rw [if_pos h2, List.cons_append, List.singleton_append,
      decodeChar?_two (by omega) (by omega) hlead (by omega), hvalue, Char.ofNat_toNat]
  rw [if_neg h2]
  by_cases h3 : c.toNat < 0x10000
  · obtain ⟨low, high, hlead, hrange⟩ : ∃ low high, lead? (0xE0 + c.toNat / 4096) =
        some (2, low, high) ∧ low ≤ 0x80 + c.toNat / 64 % 64 ∧ 0x80 + c.toNat / 64 % 64 ≤ high := by
      unfold lead?
      split_ifs <;> first | omega | exact ⟨_, _, rfl, by omega⟩
    have hvalue : (0xE0 + c.toNat / 4096) % 16 * 4096 + (0x80 + c.toNat / 64 % 64) % 64 * 64 +
        (0x80 + c.toNat % 64) % 64 = c.toNat := by omega
    rw [if_pos h3, List.cons_append, List.cons_append, List.singleton_append,
      decodeChar?_three (by omega) (by omega) (isTail_add_mod _) hlead hrange, hvalue,
      Char.ofNat_toNat]
  · obtain ⟨low, high, hlead, hrange⟩ : ∃ low high, lead? (0xF0 + c.toNat / 262144) =
        some (3, low, high) ∧ low ≤ 0x80 + c.toNat / 4096 % 64 ∧
          0x80 + c.toNat / 4096 % 64 ≤ high := by
      unfold lead?
      split_ifs <;> first | omega | exact ⟨_, _, rfl, by omega⟩
    have hvalue : (0xF0 + c.toNat / 262144) % 8 * 262144 +
        (0x80 + c.toNat / 4096 % 64) % 64 * 4096 + (0x80 + c.toNat / 64 % 64) % 64 * 64 +
          (0x80 + c.toNat % 64) % 64 = c.toNat := by omega
    rw [if_neg h3, List.cons_append, List.cons_append, List.cons_append, List.singleton_append,
      decodeChar?_four (by omega) (by omega) (isTail_add_mod _) (isTail_add_mod _) hlead hrange,
      hvalue, Char.ofNat_toNat]

theorem length_le_length_encode (text : List Char) : text.length ≤ (encode text).length := by
  induction text with
  | nil => exact Nat.zero_le _
  | cons c text ih =>
    have hc := List.length_pos_of_ne_nil (encodeChar_ne_nil c)
    rw [encode_cons, List.length_append, List.length_cons]
    omega

theorem decodeUpTo_succ {bytes : List UInt8} (h : bytes ≠ []) (fuel : Nat) :
    decodeUpTo (fuel + 1) bytes =
      decodeChar? bytes >>= fun (c, rest) => decodeUpTo fuel rest >>= fun text =>
        some (c :: text) := by
  obtain ⟨b, bs, rfl⟩ := List.exists_cons_of_ne_nil h
  rfl

theorem decodeUpTo_encode {text : List Char} {fuel : Nat} (h : text.length ≤ fuel) :
    decodeUpTo fuel (encode text) = some text := by
  induction text generalizing fuel with
  | nil => cases fuel <;> rfl
  | cons c text ih =>
    obtain ⟨fuel, rfl⟩ : ∃ n, fuel = n + 1 := ⟨fuel - 1, by simp at h; omega⟩
    have hne : encodeChar c ++ encode text ≠ [] := by simp [encodeChar_ne_nil]
    rw [encode_cons, decodeUpTo_succ hne, decodeChar?_encodeChar]
    dsimp only [Option.bind_eq_bind, Option.bind_some]
    rw [ih (by simpa using h)]
    rfl

/-- Every text is read back from its bytes. -/
theorem decode?_encode (text : List Char) : decode? (encode text) = some text :=
  decodeUpTo_encode (length_le_length_encode text)

theorem toNat_ofNat_of_scalar {n : Nat} (h : n < 0xD800 ∨ 0xDFFF < n ∧ n < 0x110000) :
    (Char.ofNat n).toNat = n := by
  rw [Char.toNat_ofNat, if_pos h]

/-- The second byte keeps long forms of short characters, surrogates and numbers that are too large
out. -/
theorem lead?_cases {a n low high : Nat} (h : lead? a = some (n, low, high)) :
    (n = 1 ∧ 0xC2 ≤ a ∧ a ≤ 0xDF ∧ low = 0x80 ∧ high = 0xBF) ∨
      (n = 2 ∧ 0xE0 ≤ a ∧ a ≤ 0xEF ∧ 0x80 ≤ low ∧ high ≤ 0xBF ∧ (a = 0xE0 → low = 0xA0) ∧
        (a = 0xED → high = 0x9F)) ∨
      (n = 3 ∧ 0xF0 ≤ a ∧ a ≤ 0xF4 ∧ 0x80 ≤ low ∧ high ≤ 0xBF ∧ (a = 0xF0 → low = 0x90) ∧
        (a = 0xF4 → high = 0x8F)) := by
  unfold lead? at h
  split_ifs at h <;> cases h <;> omega

/-- The bytes that are read as a character are its own. -/
theorem eq_encodeChar_append {bytes rest : List UInt8} {char : Char}
    (h : decodeChar? bytes = some (char, rest)) : bytes = encodeChar char ++ rest := by
  unfold decodeChar? at h
  split at h
  case h_1 => cases h
  case h_2 b more =>
    have hb := b.toNat_lt
    dsimp only at h
    by_cases hone : b.toNat < 0x80
    · rw [if_pos hone] at h
      cases h
      have hnumber : (Char.ofNat b.toNat).toNat = b.toNat := toNat_ofNat_of_scalar (by omega)
      simp [encodeChar, hnumber, hone]
    rw [if_neg hone] at h
    split at h
    case h_1 low high c more hlead =>
      have hfirst := lead?_cases hlead
      split_ifs at h with hrange
      cases h
      have hnumber := toNat_ofNat_of_scalar (n := b.toNat % 32 * 64 + c.toNat % 64) (by omega)
      simp only [encodeChar, hnumber]
      rw [if_neg (by omega), if_pos (by omega)]
      simp only [List.cons_append, List.nil_append, List.cons.injEq, ← UInt8.toNat_inj,
        UInt8.toNat_ofNat', and_true]
      omega
    case h_2 low high c d more hlead =>
      have hfirst := lead?_cases hlead
      simp only [isTail_iff] at h
      split_ifs at h with hrange
      cases h
      have hnumber := toNat_ofNat_of_scalar
        (n := b.toNat % 16 * 4096 + c.toNat % 64 * 64 + d.toNat % 64) (by omega)
      simp only [encodeChar, hnumber]
      rw [if_neg (by omega), if_neg (by omega), if_pos (by omega)]
      simp only [List.cons_append, List.nil_append, List.cons.injEq, ← UInt8.toNat_inj,
        UInt8.toNat_ofNat', and_true]
      omega
    case h_3 low high c d e more hlead =>
      have hfirst := lead?_cases hlead
      simp only [isTail_iff] at h
      split_ifs at h with hrange
      cases h
      have hnumber := toNat_ofNat_of_scalar
        (n := b.toNat % 8 * 262144 + c.toNat % 64 * 4096 + d.toNat % 64 * 64 + e.toNat % 64)
        (by omega)
      simp only [encodeChar, hnumber]
      rw [if_neg (by omega), if_neg (by omega), if_neg (by omega)]
      simp only [List.cons_append, List.nil_append, List.cons.injEq, ← UInt8.toNat_inj,
        UInt8.toNat_ofNat', and_true]
      omega
    case h_4 => cases h

theorem eq_encode_of_decodeUpTo {fuel : Nat} {bytes : List UInt8} {text : List Char}
    (h : decodeUpTo fuel bytes = some text) : bytes = encode text := by
  induction fuel generalizing bytes text with
  | zero =>
    cases bytes with
    | nil =>
      cases h
      rfl
    | cons b bytes => cases h
  | succ fuel ih =>
    by_cases hempty : bytes = []
    · subst hempty
      cases h
      rfl
    · rw [decodeUpTo_succ hempty] at h
      obtain ⟨⟨c, rest⟩, hchar, h⟩ := Option.bind_eq_some_iff.mp h
      obtain ⟨text, htext, h⟩ := Option.bind_eq_some_iff.mp h
      cases h
      rw [eq_encodeChar_append hchar, ih htext, encode_cons]

/-- Bytes are read as the one text that they encode. -/
theorem decode?_eq_some_iff {bytes : List UInt8} {text : List Char} :
    decode? bytes = some text ↔ bytes = encode text :=
  ⟨eq_encode_of_decodeUpTo, fun h => h ▸ decode?_encode text⟩

end ClaimMapping.Text.Utf8
