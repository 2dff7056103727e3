import ClaimMapping.Proofs.Decimal.Rounding
import ClaimMapping.Proofs.Decimal.Shortest
import ClaimMapping.Proofs.Json.Number

namespace ClaimMapping.Json

open Decimal

/-- A decimal up to this limit is scaled to a finite number, even when both factors and their
product are rounded up. -/
def finiteLimit : ℚ := (2 ^ 1024 - 2 ^ 972) / (1 + 1 / 2 ^ 52) ^ 2

theorem finiteLimit_lt : finiteLimit < 10 ^ (309 : Int) := by
  have hlimit : finiteLimit ≤ 2 ^ 1024 := by
    rw [finiteLimit, div_le_iff₀ (by positivity)]
    have hone : (1 : ℚ) ≤ (1 + 1 / 2 ^ 52) ^ 2 := by norm_num
    calc (2 : ℚ) ^ 1024 - 2 ^ 972 ≤ 2 ^ 1024 * 1 := by
          rw [mul_one]
          exact sub_le_self _ (by positivity)
      _ ≤ 2 ^ 1024 * (1 + 1 / 2 ^ 52) ^ 2 := mul_le_mul_of_nonneg_left hone (by positivity)
  have hpow : (2 : ℚ) ^ 1024 < 10 ^ (309 : Int) := by
    have hnat : 2 ^ 1024 < 10 ^ 309 := by decide +kernel
    rw [zpow_ofNat]
    exact_mod_cast hnat
  exact hlimit.trans_lt hpow

/-- Half a place above the significands but the last eight of the largest exponent. -/
theorem le_finiteLimit {v : ℚ} (h : v ≤ (2 ^ 55 - 30) * 2 ^ 969) : v ≤ finiteLimit := by
  refine h.trans ?_
  have hsplit : (2 : ℚ) ^ 1024 - 2 ^ 972 = (2 ^ 55 - 8) * 2 ^ 969 := by
    have hend : (2 : ℚ) ^ 1024 = 2 ^ 55 * 2 ^ 969 := by rw [← pow_add]
    have hplaces : (2 : ℚ) ^ 972 = 2 ^ 3 * 2 ^ 969 := by rw [← pow_add]
    rw [hend, hplaces, ← sub_mul]
    norm_num
  have hroom : ((2 : ℚ) ^ 55 - 30) * (1 + 1 / 2 ^ 52) ^ 2 ≤ 2 ^ 55 - 8 := by norm_num
  rw [finiteLimit, hsplit, le_div_iff₀ (by positivity), mul_right_comm]
  exact mul_le_mul_of_nonneg_right hroom (by positivity)

theorem scale?_of_neg {exponent : Int} (he : exponent < 0) (fuel : Nat) (x : Float) :
    ∃ y, scale? fuel x exponent = some y := by
  induction fuel generalizing x exponent with
  | zero => exact ⟨x, rfl⟩
  | succ fuel ih =>
    rw [scale?]
    dsimp only
    rw [if_neg (not_le.mpr he), if_neg (not_le.mpr he)]
    split_ifs with hsmall hzero
    · exact ⟨_, rfl⟩
    · exact ⟨_, rfl⟩
    · exact ih (by omega) _

theorem scale?_of_mul {exponent : Nat} (he : exponent ≤ 308) {x : Float}
    (hx : (x * nearest 1 exponent == infinity) = false) (fuel : Nat) :
    ∃ y, scale? (fuel + 1) x exponent = some y := by
  rw [scale?, Int.natAbs_natCast, if_pos he, if_pos (Int.natCast_nonneg exponent)]
  dsimp only
  rw [hx]
  exact ⟨_, rfl⟩

theorem scale?_zero (exponent : Nat) (fuel : Nat) :
    ∃ y, scale? (fuel + 1) (UInt64.ofNat 0).toFloat exponent = some y := by
  by_cases he : exponent ≤ 308
  · exact scale?_of_mul he (zero_mul_ne_infinity (normalUpTo_nearest he)) fuel
  · have hzero : ((UInt64.ofNat 0).toFloat == 0.0) = true := by decide +kernel
    rw [scale?, Int.natAbs_natCast, if_neg he, hzero]
    exact ⟨_, rfl⟩

/-- A decimal of a word of digits up to the limit is read. -/
theorem ofParts?_of_le (negative : Bool) {n : Nat} {exponent : Int} (hn : n < wordLimit)
    (hle : (n : ℚ) * 10 ^ exponent ≤ finiteLimit) : ∃ y, ofParts? negative n exponent = some y := by
  suffices h : ∃ y, scale? 4 (UInt64.ofNat n).toFloat exponent = some y by
    obtain ⟨y, hy⟩ := h
    rw [ofParts?, hy]
    exact ⟨_, rfl⟩
  by_cases he : exponent < 0
  · exact scale?_of_neg he 4 _
  obtain ⟨k, rfl⟩ := Int.eq_ofNat_of_zero_le (not_lt.mp he)
  obtain rfl | hpos := Nat.eq_zero_or_pos n
  · exact scale?_zero k 3
  have hk : k ≤ 308 := by
    have hone : (1 : ℚ) ≤ n := by exact_mod_cast hpos
    have hpow : (10 : ℚ) ^ (k : Int) < 10 ^ (309 : Int) :=
      (le_mul_of_one_le_left (by positivity) hone).trans_lt (hle.trans_lt finiteLimit_lt)
    have hlt := (zpow_lt_zpow_iff_right₀ (by norm_num)).mp hpow
    omega
  refine scale?_of_mul hk ?_ 3
  refine mul_ne_infinity (normalUpTo_toFloat hpos hn) (normalUpTo_nearest hk) ?_
  rw [finiteLimit, zpow_natCast, le_div_iff₀ (by positivity)] at hle
  calc (n : ℚ) * (1 + 1 / 2 ^ 52) * (10 ^ k * (1 + 1 / 2 ^ 52)) =
        n * 10 ^ k * (1 + 1 / 2 ^ 52) ^ 2 := by ring
    _ ≤ 2 ^ 1024 - 2 ^ 972 := hle

/-- The digits taken fit a word, and with zeros for the others they do not exceed the number. -/
theorem takeSignificant_spec {n : Nat} (hn : n < wordLimit) (digits : List Char) :
    (takeSignificant n digits).1 < wordLimit ∧
      (takeSignificant n digits).2.length ≤ digits.length ∧
      (takeSignificant n digits).1 * 10 ^ (takeSignificant n digits).2.length ≤
        digits.foldl nextDigit n := by
  induction digits generalizing n with
  | nil => simpa [takeSignificant] using hn
  | cons c digits ih =>
    rw [takeSignificant]
    split_ifs with hnext
    · obtain ⟨hword, hlength, hvalue⟩ := ih hnext
      exact ⟨hword, hlength.trans (Nat.le_succ _), hvalue⟩
    · refine ⟨hn, le_rfl, ?_⟩
      rw [foldl_nextDigit]
      exact Nat.le_add_right _ _

/-- Up to sixteen digits all fit a word. -/
theorem takeSignificant_of_length_le {digits : List Char} (h : ∀ c ∈ digits, isDigit c = true)
    (hlength : digits.length ≤ 16) : takeSignificant 0 digits = (natValue digits, []) := by
  induction digits using List.reverseRecOn with
  | nil => rfl
  | append_singleton digits c ih =>
    rw [List.forall_mem_append, List.forall_mem_singleton] at h
    rw [List.length_append, List.length_singleton] at hlength
    have hvalue : natValue digits < 10 ^ 15 :=
      (natValue_lt h.1).trans_le (Nat.pow_le_pow_right (by decide) (by omega))
    have hword : 10 * natValue digits + digitValue c < wordLimit := by
      have hc := digitValue_lt h.2
      rw [wordLimit]
      omega
    rw [takeSignificant_concat (ih h.1 (by omega)) hword, natValue_concat]

theorem takeSignificant_singleton {c : Char} (h : isDigit c = true) :
    takeSignificant 0 [c] = (digitValue c, []) := by
  have hlength : [c].length ≤ 16 := by simp
  rw [takeSignificant_of_length_le (List.forall_mem_singleton.mpr h) hlength, natValue_cons]
  simp [natValue]

/-- A number of few digits and no positive exponent is always read. -/
theorem ofParts?_of_nonpos (negative : Bool) {n : Nat} {exponent : Int} (hn : n < wordLimit)
    (he : exponent ≤ 0) : ∃ y, ofParts? negative n exponent = some y := by
  refine ofParts?_of_le negative hn (le_finiteLimit ?_)
  have hn' : (n : ℚ) ≤ 2 ^ 64 := by exact_mod_cast hn.le
  have hone : (10 : ℚ) ^ exponent ≤ 1 := zpow_le_one_of_nonpos₀ (by norm_num) he
  calc (n : ℚ) * 10 ^ exponent ≤ 2 ^ 64 * 1 := mul_le_mul hn' hone (by positivity) (by positivity)
    _ ≤ 1 * 2 ^ 969 := by
      rw [mul_one, one_mul]
      exact pow_le_pow_right₀ one_le_two (by decide)
    _ ≤ (2 ^ 55 - 30) * 2 ^ 969 := mul_le_mul_of_nonneg_right (by norm_num) (by positivity)

/-- A numeral with a point, and at most sixteen digits in front of it. -/
theorem ofDigits?_point (negative : Bool) {whole : List Char} (hw : ∀ c ∈ whole, isDigit c = true)
    (hlength : whole.length ≤ 16) (fraction : List Char) :
    ∃ n, ofDigits? negative whole (some fraction) none = some n := by
  have hword : natValue whole < wordLimit := by
    calc natValue whole < 10 ^ whole.length := natValue_lt hw
      _ ≤ 10 ^ 16 := Nat.pow_le_pow_right (by decide) hlength
      _ < wordLimit := by decide
  obtain ⟨hword', hignored, -⟩ := takeSignificant_spec hword fraction
  rw [ofDigits?, takeSignificant_of_length_le hw hlength]
  dsimp only [Option.getD_some]
  have hexponent : (([] : List Char).length : Int) -
      (fraction.length - (takeSignificant (natValue whole) fraction).2.length : Nat) ≤ 0 := by simp
  obtain ⟨y, hy⟩ := ofParts?_of_nonpos negative hword' hexponent
  rw [hy]
  exact ⟨.real y, rfl⟩

/-- The shortest decimal of a number leaves room for both roundings of the reader. -/
theorem withExponent?_of_le (negative : Bool) {n : Nat} {base e : Int} (hn : n < wordLimit)
    (he : n ≠ 0 → e < 309) (hle : (n : ℚ) * 10 ^ (base + e) ≤ finiteLimit) :
    ∃ y, withExponent? negative n base e = some y := by
  rw [withExponent?]
  split_ifs with hlarge hinfinite
  · have hsmall := he hinfinite.1
    rw [exponentBound] at hlarge
    omega
  · exact ⟨_, rfl⟩
  · exact ⟨_, rfl⟩
  · exact ofParts?_of_le negative hn hle

/-- The exponent of a number below the limit is small when its first digit counts. -/
theorem exponent_lt_of_value_le {d : Char} {digits : List Char} {e : Int} (hd : digitValue d ≠ 0)
    (hvalue : (natValue (d :: digits) : ℚ) * 10 ^ (e - digits.length) ≤ finiteLimit) : e < 309 := by
  have hplaces : (10 : ℚ) ^ digits.length ≤ natValue (d :: digits) := by
    have hnat : 1 * 10 ^ digits.length ≤ natValue (d :: digits) := by
      rw [natValue_cons]
      exact (Nat.mul_le_mul_right _ (Nat.pos_of_ne_zero hd)).trans (Nat.le_add_right _ _)
    rw [Nat.one_mul] at hnat
    exact_mod_cast hnat
  have hpow : (10 : ℚ) ^ e < 10 ^ (309 : Int) := by
    calc (10 : ℚ) ^ e = 10 ^ digits.length * 10 ^ (e - digits.length) := by
          rw [← zpow_natCast, ← zpow_add₀ (by norm_num), add_sub_cancel]
      _ ≤ natValue (d :: digits) * 10 ^ (e - digits.length) :=
        mul_le_mul_of_nonneg_right hplaces (by positivity)
      _ < 10 ^ (309 : Int) := hvalue.trans_lt finiteLimit_lt
  exact (zpow_lt_zpow_iff_right₀ (by norm_num)).mp hpow

/-- A numeral of one digit, a fraction perhaps, and an exponent, with a value up to the limit. -/
theorem ofDigits?_power (negative : Bool) {d : Char} {fraction : Option (List Char)} {e : Int}
    (hd : isDigit d = true)
    (hlead : natValue (d :: fraction.getD []) ≠ 0 → digitValue d ≠ 0)
    (hvalue : (natValue (d :: fraction.getD []) : ℚ) * 10 ^ (e - (fraction.getD []).length) ≤
      finiteLimit) :
    ∃ n, ofDigits? negative [d] fraction (some e) = some n := by
  set digits := fraction.getD [] with hdigits
  have hword : digitValue d < wordLimit := (digitValue_lt hd).trans (by decide)
  obtain ⟨hword', hignored, hle⟩ := takeSignificant_spec hword digits
  have hfold : digits.foldl nextDigit (digitValue d) = natValue (d :: digits) := by
    rw [foldl_nextDigit, natValue_cons]
  rw [hfold] at hle
  have hunfold : ofDigits? negative [d] fraction (some e) =
      (withExponent? negative (takeSignificant (digitValue d) digits).1
        (0 - (digits.length - (takeSignificant (digitValue d) digits).2.length : Nat)) e).map
          .real := by
    rw [ofDigits?, takeSignificant_singleton hd, hdigits]
    cases fraction <;> rfl
  rw [hunfold]
  generalize takeSignificant (digitValue d) digits = taken at hword' hignored hle ⊢
  obtain ⟨significand, ignored⟩ := taken
  dsimp only at hword' hignored hle ⊢
  have hsmall : significand ≠ 0 → e < 309 := by
    intro hne
    have hpos : 0 < significand * 10 ^ ignored.length :=
      Nat.mul_pos (Nat.pos_of_ne_zero hne) (Nat.pow_pos (by decide))
    exact exponent_lt_of_value_le (hlead (by omega)) hvalue
  have hscaled : (significand : ℚ) *
      10 ^ (0 - ((digits.length - ignored.length : Nat) : Int) + e) ≤ finiteLimit := by
    have hle' : (significand : ℚ) * 10 ^ ignored.length ≤ natValue (d :: digits) := by
      exact_mod_cast hle
    have hsplit : 0 - ((digits.length - ignored.length : Nat) : Int) + e =
        ignored.length + (e - digits.length) := by omega
    rw [hsplit, zpow_add₀ (by norm_num), zpow_natCast, ← mul_assoc]
    exact (mul_le_mul_of_nonneg_right hle' (by positivity)).trans hvalue
  obtain ⟨y, hy⟩ := withExponent?_of_le negative hword' hsmall hscaled
  rw [hy]
  exact ⟨.real y, rfl⟩

/-- Reading needs no more than the parts of a number, each ended by the next. -/
theorem takeMagnitude?_of_parts {negative : Bool} {text r₁ r₂ rest whole : List Char}
    {fraction : Option (List Char)} {exponent : Option Int} {n : Number}
    (hwhole : takeWhole? text = some (whole, r₁))
    (hfraction : takeFraction? r₁ = some (fraction, r₂))
    (hexponent : takePower? r₂ = some (exponent, rest))
    (hn : ofDigits? negative whole fraction exponent = some n) :
    takeMagnitude? negative text = some (n, rest) := by
  rw [takeMagnitude?, hwhole]
  dsimp only [Option.bind_eq_bind, Option.bind_some]
  rw [hfraction]
  dsimp only [Option.bind_some]
  rw [hexponent]
  dsimp only [Option.bind_some]
  rw [hn]
  rfl

theorem takeFraction?_point {digits rest : List Char} (hne : digits ≠ [])
    (hd : ∀ c ∈ digits, isDigit c = true) (hr : ∀ c ∈ rest.head?, isDigit c = false) :
    takeFraction? ('.' :: (digits ++ rest)) = some (some digits, rest) := by
  obtain ⟨c, digits, rfl⟩ := List.exists_cons_of_ne_nil hne
  rw [takeFraction?, takeDigits_append hd hr]

theorem takePower?_intText (e : Int) : takePower? ('e' :: intText e) = some (some e, []) := by
  have hdigits : takeDigits (natText e.natAbs) = (natText e.natAbs, []) := by
    have h := takeDigits_append (fun c => isDigit_of_mem_natText (n := e.natAbs) (c := c))
      (show ∀ c ∈ ([] : List Char).head?, isDigit c = false by simp)
    rwa [List.append_nil] at h
  have hsign : takeSign (intText e) = (decide (e < 0), natText e.natAbs) := by
    rw [intText]
    split_ifs with he
    · rw [decide_eq_true he]
      rfl
    · rw [decide_eq_false he]
      obtain ⟨c, hhead, hc⟩ := head?_natText_append e.natAbs []
      rw [List.append_nil] at hhead
      refine takeSign_of_ne ?_ ?_
      · intro h
        rw [hhead] at h
        cases h
        cases hc
      · intro h
        rw [hhead] at h
        cases h
        cases hc
  obtain ⟨c, ds, hcons⟩ := List.exists_cons_of_ne_nil (natText_ne_nil e.natAbs)
  change takePower?.power (intText e) = _
  rw [takePower?.power, hsign]
  dsimp only
  rw [hdigits, hcons]
  dsimp only
  rw [← hcons, natValue_natText]
  by_cases he : e < 0
  · rw [decide_eq_true he, if_pos rfl]
    have hback : -(e.natAbs : Int) = e := by omega
    rw [hback]
  · rw [decide_eq_false he, if_neg Bool.false_ne_true]
    have hback : (e.natAbs : Int) = e := by omega
    rw [hback]

theorem isDigit_of_mem_zeros {n : Nat} : ∀ c ∈ zeros n, isDigit c = true := by
  intro c hc
  rw [List.eq_of_mem_replicate hc]
  rfl

theorem isWhole_of_head? {digits : List Char} (hne : digits ≠ []) (h : digits.head? ≠ some '0') :
    IsWhole digits := by
  refine ⟨hne, fun c ds hds => h ?_⟩
  rw [hds]
  rfl

theorem takeMagnitude?_point (negative : Bool) {whole fraction : List Char} (hw : IsWhole whole)
    (hdw : ∀ c ∈ whole, isDigit c = true) (hlength : whole.length ≤ 16) (hne : fraction ≠ [])
    (hdf : ∀ c ∈ fraction, isDigit c = true) :
    ∃ n, takeMagnitude? negative (whole ++ '.' :: fraction) = some (n, []) := by
  obtain ⟨n, hn⟩ := ofDigits?_point negative hdw hlength fraction
  have hwhole : takeWhole? (whole ++ '.' :: fraction) = some (whole, '.' :: fraction) := by
    refine takeWhole?_eq_some_iff.mpr ⟨takeDigits_append hdw ?_, hw⟩
    simp [isDigit]
  have hfraction : takeFraction? ('.' :: fraction) = some (some fraction, []) := by
    have h : takeFraction? ('.' :: (fraction ++ [])) = some (some fraction, []) :=
      takeFraction?_point hne hdf (by simp)
    rwa [List.append_nil] at h
  exact ⟨n, takeMagnitude?_of_parts hwhole hfraction rfl hn⟩

/-- Positional numerals are read when no zero stands in front of their digits. -/
theorem takeMagnitude?_positionalText (negative : Bool) {digits : List Char} {place : Int}
    (hd : ∀ c ∈ digits, isDigit c = true) (hne : digits ≠ []) (hplace : place ≤ 16)
    (hzero : 0 < place → digits.head? ≠ some '0') :
    ∃ n, takeMagnitude? negative (positionalText true digits place) = some (n, []) := by
  rw [positionalText, if_pos rfl]
  split_ifs with hsmall hinside
  · have hwhole : IsWhole ['0'] := isWhole_natText 0
    have hfraction : ∀ c ∈ zeros (-place).toNat ++ digits, isDigit c = true :=
      List.forall_mem_append.mpr ⟨isDigit_of_mem_zeros, hd⟩
    exact takeMagnitude?_point negative hwhole (List.forall_mem_singleton.mpr rfl) (by simp)
      (List.append_ne_nil_of_right_ne_nil _ hne) hfraction
  · have htake : digits.take place.toNat ≠ [] := by
      rw [ne_eq, List.take_eq_nil_iff, not_or]
      exact ⟨by omega, hne⟩
    have hhead : (digits.take place.toNat).head? ≠ some '0' := by
      rw [List.head?_take, if_neg (by omega)]
      exact hzero (not_le.mp hsmall)
    have hlength : (digits.take place.toNat).length ≤ 16 := by
      rw [List.length_take]
      omega
    have hdrop : digits.drop place.toNat ≠ [] := by
      rw [ne_eq, List.drop_eq_nil_iff]
      omega
    exact takeMagnitude?_point negative (isWhole_of_head? htake hhead)
      (fun c hc => hd c (List.mem_of_mem_take hc)) hlength hdrop
      (fun c hc => hd c (List.mem_of_mem_drop hc))
  · have hwhole : IsWhole (digits ++ zeros (place.toNat - digits.length)) := by
      refine isWhole_of_head? (List.append_ne_nil_of_left_ne_nil hne _) ?_
      rw [List.head?_append_of_ne_nil _ hne]
      exact hzero (not_le.mp hsmall)
    have hdigits : ∀ c ∈ digits ++ zeros (place.toNat - digits.length), isDigit c = true :=
      List.forall_mem_append.mpr ⟨hd, isDigit_of_mem_zeros⟩
    have hlength : (digits ++ zeros (place.toNat - digits.length)).length ≤ 16 := by
      rw [List.length_append, zeros, List.length_replicate]
      omega
    exact takeMagnitude?_point negative hwhole hdigits hlength (List.cons_ne_nil '0' [])
      (List.forall_mem_singleton.mpr rfl)

theorem takeWhole?_digit {d : Char} (hd : isDigit d = true) {rest : List Char}
    (hr : ∀ c ∈ rest.head?, isDigit c = false) : takeWhole? (d :: rest) = some ([d], rest) := by
  have hdigits : takeDigits ([d] ++ rest) = ([d], rest) :=
    takeDigits_append (List.forall_mem_singleton.mpr hd) hr
  exact takeWhole?_eq_some_iff.mpr ⟨hdigits, by simp, by simp⟩

/-- A numeral with an exponent is read when its value is up to the limit. -/
theorem takeMagnitude?_exponentText (negative : Bool) {d : Char} {rest : List Char} {place : Int}
    (hd : isDigit d = true) (hrest : ∀ c ∈ rest, isDigit c = true)
    (hlead : natValue (d :: rest) ≠ 0 → digitValue d ≠ 0)
    (hvalue : (natValue (d :: rest) : ℚ) * 10 ^ (place - (d :: rest).length) ≤ finiteLimit) :
    ∃ n, takeMagnitude? negative (exponentText (d :: rest) place) = some (n, []) := by
  have hexponent : place - (d :: rest).length = place - 1 - rest.length := by
    rw [List.length_cons]
    omega
  rw [hexponent] at hvalue
  have hpower := takePower?_intText (place - 1)
  cases rest with
  | nil =>
    obtain ⟨n, hn⟩ : ∃ n, ofDigits? negative [d] none (some (place - 1)) = some n :=
      ofDigits?_power negative hd hlead hvalue
    have hwhole : takeWhole? (d :: 'e' :: intText (place - 1)) =
        some ([d], 'e' :: intText (place - 1)) := takeWhole?_digit hd (by simp [isDigit])
    have hfraction : takeFraction? ('e' :: intText (place - 1)) =
        some (none, 'e' :: intText (place - 1)) := takeFraction?_of_ne (by simp)
    exact ⟨n, takeMagnitude?_of_parts hwhole hfraction hpower hn⟩
  | cons c rest =>
    obtain ⟨n, hn⟩ : ∃ n, ofDigits? negative [d] (some (c :: rest)) (some (place - 1)) = some n :=
      ofDigits?_power negative hd hlead hvalue
    have hwhole : takeWhole? (d :: '.' :: (c :: rest ++ 'e' :: intText (place - 1))) =
        some ([d], '.' :: (c :: rest ++ 'e' :: intText (place - 1))) :=
      takeWhole?_digit hd (by simp [isDigit])
    have hfraction : takeFraction? ('.' :: (c :: rest ++ 'e' :: intText (place - 1))) =
        some (some (c :: rest), 'e' :: intText (place - 1)) :=
      takeFraction?_point (List.cons_ne_nil c rest) hrest (by simp [isDigit])
    exact ⟨n, takeMagnitude?_of_parts hwhole hfraction hpower hn⟩

/-- A number that is not zero, without its sign. -/
def magnitudeText (b : Binary) : List Char :=
  let digits := natText b.shortest.digits
  let place := digits.length + b.shortest.exponent
  if floatLayout.isPositional place then positionalText true digits place
  else exponentText digits place

theorem write_of_finite {x : Float} {negative : Bool} {b : Binary}
    (hx : FloatForm.ofFloat x = .finite negative b) (hb : b.significand ≠ 0) :
    floatLayout.write x = (if negative then ['-'] else []) ++ magnitudeText b := by
  rw [Layout.write, hx]
  dsimp only
  rw [if_neg hb]
  rfl

/-- The largest significands of the largest exponent leave no room for two roundings, but their own
decimals are not rounded out of the range. -/
theorem takeMagnitude?_largest (negative : Bool) : ∀ i : Fin 7,
    ((takeMagnitude? negative (magnitudeText ⟨2 ^ 53 - 1 - i.val, 971⟩)).map fun read => read.2) =
      some [] := by
  cases negative <;> decide +kernel

theorem value_shortest_le_finiteLimit {b : Binary} (hs : b.significand < 2 ^ 53)
    (he : b.exponent ≤ 971) (h : b.exponent = 971 → b.significand ≤ 2 ^ 53 - 8) :
    b.shortest.value ≤ finiteLimit := by
  refine le_finiteLimit ((value_shortest_le b).trans ?_)
  by_cases hlast : b.exponent = 971
  · have hsignificand : 4 * b.significand + 2 ≤ 2 ^ 55 - 30 := by
      have hmost := h hlast
      omega
    have hcast : ((4 * b.significand + 2 : Nat) : ℚ) ≤ (2 ^ 55 - 30 : Nat) := by
      exact_mod_cast hsignificand
    have hplace : (971 : Int) - 2 = (969 : Nat) := rfl
    rw [hlast, hplace, zpow_natCast]
    calc ((4 * b.significand + 2 : Nat) : ℚ) * 2 ^ 969 ≤ (2 ^ 55 - 30 : Nat) * 2 ^ 969 :=
          mul_le_mul_of_nonneg_right hcast (by positivity)
      _ = (2 ^ 55 - 30) * 2 ^ 969 := by norm_num
  · have hcast : ((4 * b.significand + 2 : Nat) : ℚ) ≤ 2 ^ 55 := by
      have hsignificand : 4 * b.significand + 2 ≤ 2 ^ 55 := by omega
      exact_mod_cast hsignificand
    have hplace : (2 : ℚ) ^ (b.exponent - 2) ≤ 2 ^ (968 : Int) :=
      zpow_le_zpow_right₀ one_le_two (by omega)
    calc ((4 * b.significand + 2 : Nat) : ℚ) * 2 ^ (b.exponent - 2) ≤ 2 ^ 55 * 2 ^ (968 : Int) :=
          mul_le_mul hcast hplace (by positivity) (by positivity)
      _ = 2 ^ 54 * 2 ^ 969 := by rw [zpow_ofNat, ← pow_add, ← pow_add]
      _ ≤ (2 ^ 55 - 30) * 2 ^ 969 := mul_le_mul_of_nonneg_right (by norm_num) (by positivity)

theorem digitValue_ne_zero {c : Char} (h : isDigit c = true) (hc : c ≠ '0') : digitValue c ≠ 0 := by
  rw [isDigit, Bool.and_eq_true, decide_eq_true_eq, decide_eq_true_eq] at h
  have hleast : '0'.toNat ≤ c.toNat := h.1
  have hne : c.toNat ≠ '0'.toNat := fun heq => hc (Char.toNat_inj.mp heq)
  rw [digitValue]
  omega

theorem takeMagnitude?_magnitudeText (negative : Bool) {b : Binary} (hb : b.significand ≠ 0)
    (hs : b.significand < 2 ^ 53) (he : b.exponent ≤ 971) :
    ∃ n, takeMagnitude? negative (magnitudeText b) = some (n, []) := by
  by_cases hlargest : b.exponent = 971 ∧ 2 ^ 53 - 8 < b.significand
  · obtain ⟨hlast, hlarge⟩ := hlargest
    have h := takeMagnitude?_largest negative ⟨2 ^ 53 - 1 - b.significand, by omega⟩
    have hself : (⟨2 ^ 53 - 1 - (2 ^ 53 - 1 - b.significand), 971⟩ : Binary) = b := by
      rw [← hlast, Nat.sub_sub_self (by omega)]
    rw [hself] at h
    obtain ⟨⟨n, rest⟩, hn, rfl⟩ := Option.map_eq_some_iff.mp h
    exact ⟨n, hn⟩
  have hvalue : b.shortest.value ≤ finiteLimit :=
    value_shortest_le_finiteLimit hs he fun hlast => by omega
  have hdigits : ∀ c ∈ natText b.shortest.digits, isDigit c = true :=
    fun _ => isDigit_of_mem_natText
  rw [magnitudeText]
  split_ifs with hpositional
  · have hplaces : -4 ≤ (natText b.shortest.digits).length + b.shortest.exponent ∧
        (natText b.shortest.digits).length + b.shortest.exponent ≤ 16 := by
      simpa [Layout.isPositional, floatLayout] using hpositional
    refine takeMagnitude?_positionalText negative hdigits (natText_ne_nil _) hplaces.2 ?_
    intro hpos
    refine head?_natText fun hzero => ?_
    rw [hzero] at hpos hplaces
    have hlength : (natText 0).length = 1 := rfl
    rw [hlength] at hpos hplaces
    exact digits_shortest_ne_zero hb (by omega) (by omega) hzero
  · obtain ⟨d, rest, hcons⟩ := List.exists_cons_of_ne_nil (natText_ne_nil b.shortest.digits)
    have hnumber : natValue (d :: rest) = b.shortest.digits := by
      rw [← hcons, natValue_natText]
    rw [hcons, List.forall_mem_cons] at hdigits
    rw [hcons]
    refine takeMagnitude?_exponentText negative hdigits.1 hdigits.2 ?_ ?_
    · intro hne
      rw [hnumber] at hne
      have hhead := head?_natText hne
      rw [hcons, List.head?_cons] at hhead
      exact digitValue_ne_zero hdigits.1 fun h => hhead (congrArg some h)
    · rw [hnumber, add_sub_cancel_left]
      exact hvalue

/-- What is written for a binary64 number is read as a number again, or is `null`. -/
theorem takeNumber?_write (x : Float) :
    (∃ n, takeNumber? (floatLayout.write x) = some (n, [])) ∨
      floatLayout.write x = ['n', 'u', 'l', 'l'] := by
  cases hx : FloatForm.ofFloat x with
  | notANumber =>
    refine .inr ?_
    rw [Layout.write, hx]
    rfl
  | infinite negative =>
    refine .inr ?_
    rw [Layout.write, hx]
    cases negative <;> rfl
  | finite negative b =>
    refine .inl ?_
    obtain ⟨hs, he⟩ := range_of_ofFloat hx
    by_cases hb : b.significand = 0
    · have hwrite : floatLayout.write x = (if negative then ['-'] else []) ++ ['0', '.', '0'] := by
        rw [Layout.write, hx]
        dsimp only
        rw [if_pos hb]
        rfl
      rw [hwrite]
      cases negative with
      | false => exact ⟨_, rfl⟩
      | true => exact ⟨_, rfl⟩
    · obtain ⟨n, hn⟩ := takeMagnitude?_magnitudeText negative hb hs he
      rw [write_of_finite hx hb]
      cases negative with
      | false =>
        have hhead : (magnitudeText b).head? ≠ some '-' := by
          intro hminus
          obtain ⟨text, htext⟩ := List.head?_eq_some_iff.mp hminus
          rw [htext] at hn
          cases hn
        exact ⟨n, (takeNumber?_of_ne hhead).trans hn⟩
      | true => exact ⟨n, hn⟩

theorem write_ne_nil (x : Float) : floatLayout.write x ≠ [] := by
  intro hnil
  obtain ⟨n, hn⟩ | hnull := takeNumber?_write x
  · rw [hnil] at hn
    cases hn
  · rw [hnil] at hnull
    cases hnull

end ClaimMapping.Json
