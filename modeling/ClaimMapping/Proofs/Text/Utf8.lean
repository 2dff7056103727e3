import ClaimMapping.Attribute.Value
import Mathlib

namespace ClaimMapping.Text.Utf8

theorem toNat_lt (c : Char) : c.toNat < 0x110000 := by
  have h := c.valid
  simp only [UInt32.isValidChar, Nat.isValidChar] at h
  change c.val.toNat < _
  omega

theorem encodeChar_eq_utf8EncodeChar (c : Char) : encodeChar c = String.utf8EncodeChar c := by
  have hc := toNat_lt c
  have hn : c.val.toNat = c.toNat := rfl
  simp only [encodeChar, String.utf8EncodeChar, hn]
  by_cases h1 : c.toNat < 0x80
  · have h1' : c.toNat ≤ 0x7f := by omega
    rw [if_pos h1, if_pos h1']
  have h1' : ¬ c.toNat ≤ 0x7f := by omega
  rw [if_neg h1, if_neg h1']
  by_cases h2 : c.toNat < 0x800
  · have h2' : c.toNat ≤ 0x7ff := by omega
    have lead : c.toNat / 64 % 32 = c.toNat / 64 := by omega
    rw [if_pos h2, if_pos h2', lead, Nat.add_comm 0xC0, Nat.add_comm 0x80]
  have h2' : ¬ c.toNat ≤ 0x7ff := by omega
  rw [if_neg h2, if_neg h2']
  by_cases h3 : c.toNat < 0x10000
  · have h3' : c.toNat ≤ 0xffff := by omega
    have lead : c.toNat / 4096 % 16 = c.toNat / 4096 := by omega
    rw [if_pos h3, if_pos h3', lead, Nat.add_comm 0xE0, Nat.add_comm 0x80, Nat.add_comm 0x80]
  · have h3' : ¬ c.toNat ≤ 0xffff := by omega
    have lead : c.toNat / 262144 % 8 = c.toNat / 262144 := by omega
    rw [if_neg h3, if_neg h3', lead, Nat.add_comm 0xF0, Nat.add_comm 0x80, Nat.add_comm 0x80,
      Nat.add_comm 0x80]

theorem length_encodeChar (c : Char) : (encodeChar c).length = charSize c := by
  simp only [encodeChar, charSize]
  split_ifs <;> rfl

@[simp] theorem encode_nil : encode [] = [] := rfl

@[simp] theorem encode_cons (c : Char) (text : List Char) :
    encode (c :: text) = encodeChar c ++ encode text := rfl

theorem size_eq_length_encode (text : List Char) : size text = (encode text).length := by
  have shift (text : List Char) (n : Nat) :
      text.foldl (fun n c => n + charSize c) n = n + (encode text).length := by
    induction text generalizing n with
    | nil => rfl
    | cons c text ih =>
      rw [List.foldl_cons, ih, encode_cons, List.length_append, length_encodeChar, Nat.add_assoc]
  rw [size, shift, Nat.zero_add]

/-- The bytes of a string are those of the standard library. -/
theorem encode_toList (s : String) : (encode s.toList).toByteArray = s.toByteArray := by
  rw [← String.utf8Encode_toList, List.utf8Encode, encode]
  congr 2
  exact funext encodeChar_eq_utf8EncodeChar

theorem encodeChar_of_lt {c : Char} (h : c.toNat < 0x80) :
    (encodeChar c).map UInt8.toNat = [c.toNat] := by
  have hmod : c.toNat % 256 = c.toNat := Nat.mod_eq_of_lt (by omega)
  simp [encodeChar, h, hmod]

/-- No byte of a character outside of ASCII is one of ASCII. -/
theorem le_of_mem_encodeChar {c : Char} (h : 0x80 ≤ c.toNat) :
    ∀ b ∈ encodeChar c, 0x80 ≤ b.toNat := by
  have hlt := toNat_lt c
  simp only [encodeChar, if_neg (not_lt.mpr h)]
  split_ifs <;> simp only [List.forall_mem_cons, List.not_mem_nil, false_implies, implies_true,
    and_true, UInt8.toNat_ofNat'] <;> omega

theorem ofNat_cons_lt_ofNat_cons {m n : Nat} (hm : m < 256) (hn : n < 256) {s t : List UInt8} :
    UInt8.ofNat m :: s < UInt8.ofNat n :: t ↔ m < n ∨ m = n ∧ s < t := by
  rw [List.cons_lt_cons_iff, UInt8.lt_iff_toNat_lt, ← UInt8.toNat_inj, UInt8.toNat_ofNat',
    UInt8.toNat_ofNat', Nat.mod_eq_of_lt hm, Nat.mod_eq_of_lt hn]

/-- Of two characters the lesser one has the lesser bytes, whatever follows them. -/
theorem encodeChar_append_lt {c d : Char} (h : c < d) (s t : List UInt8) :
    encodeChar c ++ s < encodeChar d ++ t := by
  have hcd : c.toNat < d.toNat := h
  have hd := toNat_lt d
  -- the quotients by powers of 64 are those of one another
  have c1 : c.toNat / 64 / 64 = c.toNat / 4096 := Nat.div_div_eq_div_mul ..
  have c2 : c.toNat / 4096 / 64 = c.toNat / 262144 := Nat.div_div_eq_div_mul ..
  have d1 : d.toNat / 64 / 64 = d.toNat / 4096 := Nat.div_div_eq_div_mul ..
  have d2 : d.toNat / 4096 / 64 = d.toNat / 262144 := Nat.div_div_eq_div_mul ..
  simp only [encodeChar]
  split_ifs <;> simp (disch := omega) only [List.cons_append, ofNat_cons_lt_ofNat_cons] <;> omega

theorem encodeChar_ne_nil (c : Char) : encodeChar c ≠ [] := by
  simp only [encodeChar]
  split_ifs <;> simp

/-- Bytes compare as the characters do. -/
theorem encode_lt_encode {s t : List Char} (h : s < t) : encode s < encode t := by
  induction h with
  | @nil c t =>
    obtain ⟨b, bs, hb⟩ := List.exists_cons_of_ne_nil (encodeChar_ne_nil c)
    rw [encode_nil, encode_cons, hb]
    exact List.nil_lt_cons _ _
  | @rel c s d t hcd => exact encodeChar_append_lt hcd _ _
  | @cons c s t _ ih => exact List.append_left_lt ih

/-- The order of strings is the order of their bytes. -/
theorem encode_lt_encode_iff {s t : String} : encode s.toList < encode t.toList ↔ s < t := by
  refine ⟨fun h => ?_, encode_lt_encode⟩
  by_contra hst
  rcases (not_lt.mp hst).lt_or_eq with hts | rfl
  · exact List.lt_asymm h (encode_lt_encode hts)
  · exact List.lt_irrefl _ h

/-- The bytes of a string as numbers. -/
def bytes (s : String) : List ℕ := (encode s.toList).map UInt8.toNat

theorem map_toNat_lt_map_toNat {s t : List UInt8} (h : s < t) :
    s.map UInt8.toNat < t.map UInt8.toNat := by
  induction h with
  | nil => exact List.nil_lt_cons _ _
  | rel h => exact .rel (UInt8.lt_iff_toNat_lt.mp h)
  | cons _ ih => exact .cons ih

/-- Strings are ordered by their bytes. -/
theorem bytes_strictMono : StrictMono bytes := fun _ _ h =>
  map_toNat_lt_map_toNat (encode_lt_encode_iff.mpr h)

end ClaimMapping.Text.Utf8

namespace ClaimMapping.Attribute

/-- The number of bytes is that of the standard library. -/
theorem byteSize_eq_utf8ByteSize (s : String) : byteSize s = s.utf8ByteSize := by
  rw [byteSize, Text.Utf8.size_eq_length_encode, ← List.size_toByteArray, Text.Utf8.encode_toList]
  rfl

end ClaimMapping.Attribute
