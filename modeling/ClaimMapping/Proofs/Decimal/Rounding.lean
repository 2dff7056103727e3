import ClaimMapping.Decimal.Numeral
import Mathlib

namespace ClaimMapping.Decimal

open Float.Model Float.Model.UnpackedFloat

/-- A number with a mantissa of 53 bits. -/
structure IsNormal (f : UnpackedFloat) (m : Nat) (e : Int) : Prop where
  finite : ∃ sign positive, f = .finite sign m e positive
  least : 2 ^ 52 ≤ m
  most : m < 2 ^ 53

theorem shiftRight_mantissa (em : ExtendedMantissa) (n : Nat) :
    (em >>> n).mantissa = em.mantissa / 2 ^ n := by
  change (n.repeat ExtendedMantissa.shiftRightOne em).mantissa = _
  induction n with
  | zero => simp [Nat.repeat]
  | succ n ih =>
    have hstep : ((n + 1).repeat ExtendedMantissa.shiftRightOne em).mantissa =
        (n.repeat ExtendedMantissa.shiftRightOne em).mantissa / 2 := rfl
    rw [hstep, ih, Nat.div_div_eq_div_mul, Nat.pow_succ]

/-- Rounding gives the mantissa or the next one. -/
theorem roundedMantissa_bounds (em : ExtendedMantissa) :
    em.mantissa ≤ em.roundedMantissa ∧ em.roundedMantissa ≤ em.mantissa + 1 := by
  obtain ⟨m, round, sticky⟩ := em
  have hmod : m % 2 ≤ 1 := Nat.le_of_lt_succ (Nat.mod_lt m (by decide))
  cases round <;> cases sticky <;>
    simp only [ExtendedMantissa.roundedMantissa, ExtendedMantissa.accuracy,
      Accuracy.roundToNearestEven] <;> omega

theorem log2_eq_of_bounds {m k : Nat} (hleast : 2 ^ k ≤ m) (hmost : m < 2 ^ (k + 1)) :
    m.log2 = k := by
  have hne : m ≠ 0 := by
    rintro rfl
    exact absurd hleast (by simp)
  exact le_antisymm (Nat.le_of_lt_succ ((Nat.log2_lt hne).mpr hmost)) ((Nat.le_log2 hne).mpr hleast)

/-- Rounding keeps 53 bits of a number that is not below the normal ones. -/
theorem targetExponent_eq {m : Nat} {e : Int} (h : -1022 ≤ m.log2 + e) :
    Format.binary64.targetExponent (totalExponent m e) = m.log2 + e - 52 := by
  have hbits : Format.binary64.mantissaBits = 53 := rfl
  have hleast : Format.binary64.minExponent = -1074 := by decide
  rw [Format.targetExponent, totalExponent, hbits, hleast]
  omega

/-- The bits of a mantissa below its leading 53 are shifted out. -/
theorem shiftToTargetExponent_eq {m : Nat} {e : Int} {n : Nat} (hm : m.log2 = n + 52)
    (he : -1022 ≤ m.log2 + e) :
    shiftToTargetExponent .binary64 m e .exact =
      ((⟨m, false, false⟩ : ExtendedMantissa) >>> n, e + n) := by
  have hshift : (Format.binary64.targetExponent (totalExponent m e) - e).toNat = n := by
    rw [targetExponent_eq he]
    omega
  rw [shiftToTargetExponent, shiftToExponent, hshift]
  rfl

/-- A mantissa without the bits below its leading 53, rounded: it has 53 bits or is the next power
of two, and exceeds the whole mantissa by at most its last place. -/
theorem roundedMantissa_shiftRight {m n : Nat} (hne : m ≠ 0) (hn : m.log2 = n + 52) :
    2 ^ 52 ≤ ((⟨m, false, false⟩ : ExtendedMantissa) >>> n).roundedMantissa ∧
      ((⟨m, false, false⟩ : ExtendedMantissa) >>> n).roundedMantissa ≤ 2 ^ 53 ∧
      ((⟨m, false, false⟩ : ExtendedMantissa) >>> n).roundedMantissa * 2 ^ n ≤ m + 2 ^ n := by
  have hpow : 0 < 2 ^ n := Nat.two_pow_pos n
  have hself : 2 ^ 52 * 2 ^ n ≤ m := by
    have h := Nat.log2_self_le hne
    rwa [hn, Nat.add_comm, Nat.pow_add] at h
  have hlt : m < 2 ^ 53 * 2 ^ n := by
    have h : m < 2 ^ (m.log2 + 1) := Nat.lt_log2_self
    have hsum : m.log2 + 1 = 53 + n := by omega
    rwa [hsum, Nat.pow_add] at h
  have hfloor : 2 ^ 52 ≤ m / 2 ^ n := (Nat.le_div_iff_mul_le hpow).mpr hself
  have hceil : m / 2 ^ n < 2 ^ 53 := (Nat.div_lt_iff_lt_mul hpow).mpr hlt
  have hdiv : m / 2 ^ n * 2 ^ n ≤ m := Nat.div_mul_le_self m (2 ^ n)
  obtain ⟨hlow, hhigh⟩ := roundedMantissa_bounds ((⟨m, false, false⟩ : ExtendedMantissa) >>> n)
  rw [shiftRight_mantissa] at hlow hhigh
  refine ⟨hfloor.trans hlow, hhigh.trans hceil, ?_⟩
  calc _ ≤ (m / 2 ^ n + 1) * 2 ^ n := Nat.mul_le_mul_right (2 ^ n) hhigh
    _ = m / 2 ^ n * 2 ^ n + 2 ^ n := by ring
    _ ≤ m + 2 ^ n := Nat.add_le_add_right hdiv (2 ^ n)

/-- The last place of a mantissa of at least 53 bits is at most its `2 ^ 52`th part. -/
theorem value_le_of_last_place {m n r : Nat} {e : Int} (hm : 2 ^ 52 * 2 ^ n ≤ m)
    (hr : r * 2 ^ n ≤ m + 2 ^ n) :
    (r : ℚ) * 2 ^ (e + n) ≤ m * 2 ^ e * (1 + 1 / 2 ^ 52) := by
  have hm' : (2 : ℚ) ^ 52 * 2 ^ n ≤ m := by exact_mod_cast hm
  have hr' : (r : ℚ) * 2 ^ n ≤ m + 2 ^ n := by exact_mod_cast hr
  have hplace : (2 : ℚ) ^ n ≤ m * (1 / 2 ^ 52) := by
    rw [mul_one_div, le_div_iff₀ (by positivity), mul_comm]
    exact hm'
  have hscale : (0 : ℚ) ≤ 2 ^ e := by positivity
  rw [zpow_add₀ two_ne_zero, zpow_natCast]
  calc (r : ℚ) * (2 ^ e * 2 ^ n) = r * 2 ^ n * 2 ^ e := by ring
    _ ≤ (m + m * (1 / 2 ^ 52)) * 2 ^ e := by
      exact mul_le_mul_of_nonneg_right (hr'.trans (by linarith)) hscale
    _ = m * 2 ^ e * (1 + 1 / 2 ^ 52) := by ring

/-- A mantissa of at least 53 bits is rounded to a normal number, above it by at most one part in
`2 ^ 52`. -/
theorem isNormal_roundWithAccuracy (sign : Sign) {m : Nat} {e : Int} (hm : 2 ^ 52 ≤ m)
    (he : -1022 ≤ m.log2 + e) :
    ∃ m' e', IsNormal (roundWithAccuracy .binary64 sign m e .exact) m' e' ∧
      m.log2 + e - 52 ≤ e' ∧ e' ≤ m.log2 + e - 51 ∧
      (m' : ℚ) * 2 ^ e' ≤ m * 2 ^ e * (1 + 1 / 2 ^ 52) := by
  have hne : m ≠ 0 := by
    rintro rfl
    exact absurd hm (by decide)
  have hlog : 52 ≤ m.log2 := (Nat.le_log2 hne).mpr hm
  obtain ⟨n, hn⟩ : ∃ n, m.log2 = n + 52 := ⟨m.log2 - 52, by omega⟩
  have hself : 2 ^ 52 * 2 ^ n ≤ m := by
    have h := Nat.log2_self_le hne
    rwa [hn, Nat.add_comm, Nat.pow_add] at h
  obtain ⟨hleast, hmost, hplace⟩ := roundedMantissa_shiftRight hne hn
  rw [roundWithAccuracy, shiftToTargetExponent_eq hn he]
  dsimp only
  generalize ((⟨m, false, false⟩ : ExtendedMantissa) >>> n).roundedMantissa = r
    at hleast hmost hplace
  have hvalue : (r : ℚ) * 2 ^ (e + n) ≤ m * 2 ^ e * (1 + 1 / 2 ^ 52) :=
    value_le_of_last_place hself hplace
  -- Rounding may carry into a bit of its own; then the mantissa is shifted once more.
  by_cases hcarry : r < 2 ^ 53
  · have hlog : r.log2 = 0 + 52 := log2_eq_of_bounds hleast hcarry
    have hmantissa : ((⟨r, false, false⟩ : ExtendedMantissa) >>> 0).mantissa = r := rfl
    rw [shiftToTargetExponent_eq hlog (by omega)]
    dsimp only
    simp only [hmantissa]
    rw [dif_neg (by omega)]
    refine ⟨r, e + n + (0 : Nat), ⟨⟨sign, _, rfl⟩, hleast, hcarry⟩, by omega, by omega, ?_⟩
    simpa using hvalue
  · have heq : r = 2 ^ 53 := by omega
    have hlog : r.log2 = 1 + 52 := by
      rw [heq]
      exact Nat.log2_two_pow
    have hmantissa : ((⟨r, false, false⟩ : ExtendedMantissa) >>> 1).mantissa = 2 ^ 52 := by
      rw [shiftRight_mantissa, heq]
      rfl
    rw [shiftToTargetExponent_eq hlog (by omega)]
    dsimp only
    simp only [hmantissa]
    rw [dif_neg (by decide)]
    refine ⟨2 ^ 52, e + n + (1 : Nat), ⟨⟨sign, _, rfl⟩, le_rfl, by decide⟩, by omega, by omega, ?_⟩
    have hhalf : ((2 ^ 52 : Nat) : ℚ) * 2 ^ (e + n + (1 : Nat)) = r * 2 ^ (e + n) := by
      rw [zpow_add₀ two_ne_zero, heq]
      push_cast
      ring
    rw [hhalf]
    exact hvalue

theorem ofBitVec_unpackSign {spec : Format} (sign : Sign) (e : BitVec spec.exponentBits)
    (m : BitVec spec.mantissaBitsWithoutImplicit) :
    Sign.ofBitVec (unpackSign (packComponents spec sign e m)) = sign := by
  have hsign : unpackSign (packComponents spec sign e m) = sign.toBitVec := by
    ext i hi
    have hzero : i = 0 := by omega
    subst hzero
    simp [unpackSign, packComponents, BitVec.getLsbD_append, BitVec.getElem_append]
  rw [hsign]
  cases sign <;> rfl

theorem exponentBias_binary64 : (Format.binary64.exponentBias : Int) = 1023 := by decide

theorem mantissaBits_binary64 : (Format.binary64.mantissaBitsWithoutImplicit : Int) = 52 := rfl

/-- The exponent of ones only is kept for infinity. -/
theorem ofNat_ne_ones {n : Nat} (h : n + 1 < 2048) : BitVec.ofNat 11 n ≠ -1#11 := by
  intro hones
  have hnat := congrArg BitVec.toNat hones
  rw [BitVec.toNat_ofNat, Nat.mod_eq_of_lt (by omega)] at hnat
  change n = 2047 at hnat
  omega

/-- Normal numbers in range keep their value in their bits. -/
theorem IsNormal.unpack_pack {f : UnpackedFloat} {m : Nat} {e : Int} (h : IsNormal f m e)
    (hleast : -1074 ≤ e) (hmost : e ≤ 971) : unpack .binary64 (pack .binary64 f) = f := by
  obtain ⟨⟨sign, positive, rfl⟩, hm, hm'⟩ := h
  have hlog : m.log2 + 1 = Format.binary64.mantissaBits := by
    rw [log2_eq_of_bounds hm hm']
    rfl
  obtain ⟨biased, hbiased⟩ : ∃ n : Nat, e + 1075 = n := ⟨(e + 1075).toNat, by omega⟩
  have hexponent : (e + Format.binary64.exponentBias +
      Format.binary64.mantissaBitsWithoutImplicit).toNat = biased := by
    rw [exponentBias_binary64, mantissaBits_binary64]
    omega
  have hfits : ¬ 2 ^ Format.binary64.exponentBits ≤ biased + 1 := by
    have hcount : 2 ^ Format.binary64.exponentBits = 2048 := rfl
    rw [hcount]
    omega
  have hpack : pack .binary64 (.finite sign m e positive) =
      packComponents .binary64 sign (BitVec.ofNat _ biased) (BitVec.ofNat _ m) := by
    rw [UnpackedFloat.pack]
    dsimp only
    rw [hexponent, if_neg hfits, if_pos hlog]
  have hexponent' : (BitVec.ofNat 11 biased).toNat = biased := by
    rw [BitVec.toNat_ofNat, Nat.mod_eq_of_lt (by omega)]
  -- an exponent of ones would be an infinity, one of zeros a subnormal number
  have hones : BitVec.ofNat 11 biased ≠ -1#11 := ofNat_ne_ones (by omega)
  have hzero : BitVec.ofNat 11 biased ≠ 0#11 := by
    intro hzero
    have hnat := congrArg BitVec.toNat hzero
    rw [hexponent'] at hnat
    change biased = 0 at hnat
    omega
  have hmantissa : (1#1 ++ BitVec.ofNat 52 m).toNat = m := by
    rw [BitVec.toNat_append, ← Nat.shiftLeft_add_eq_or_of_lt (BitVec.isLt _), BitVec.toNat_ofNat,
      Nat.shiftLeft_eq]
    change 1 * 2 ^ 52 + m % 2 ^ 52 = m
    omega
  rw [hpack, UnpackedFloat.unpack]
  simp only [unpackExponent_packComponents, unpackMantissa_packComponents, ofBitVec_unpackSign]
  rw [if_neg hones, if_neg hzero]
  have hback : ((BitVec.ofNat 11 biased).toNat : Int) - (Format.binary64.exponentBias +
      Format.binary64.mantissaBitsWithoutImplicit) = e := by
    rw [hexponent', exponentBias_binary64, mantissaBits_binary64]
    omega
  simp only [hmantissa, hback]

theorem unpack_packedInfinity (sign : Sign) :
    unpack .binary64 (packedInfinity .binary64 sign) = .infinity sign := by
  rw [packedInfinity, UnpackedFloat.unpack]
  simp only [unpackExponent_packComponents, unpackMantissa_packComponents, ofBitVec_unpackSign]
  rw [if_pos trivial]
  exact if_pos rfl

theorem unpack_packComponents_ne_infinity {sign sign' : Sign} {e : BitVec 11} {m : BitVec 52}
    (h : e = -1#11 → m ≠ 0#52) :
    unpack .binary64 (packComponents .binary64 sign e m) ≠ .infinity sign' := by
  rw [UnpackedFloat.unpack]
  simp only [unpackExponent_packComponents, unpackMantissa_packComponents]
  split_ifs with hones hmantissa
  · exact absurd hmantissa (h hones)
  · simp
  · simp
  · simp
  · simp

/-- Only a number whose exponent is out of range has the bits of infinity. -/
theorem infinity_of_unpack_pack {f : UnpackedFloat} {sign : Sign}
    (h : unpack .binary64 (pack .binary64 f) = .infinity sign) :
    f = .infinity sign ∨ ∃ m e positive, f = .finite sign m e positive ∧ 972 ≤ e := by
  cases f with
  | infinity sign' =>
    have hinfinity := unpack_packedInfinity sign'
    rw [UnpackedFloat.pack, hinfinity] at h
    exact .inl h
  | notANumber =>
    have hmantissa : -1#11 = -1#11 → 1#52 <<< 51 ≠ 0#52 := fun _ => by decide
    exact absurd h (unpack_packComponents_ne_infinity hmantissa)
  | zero sign' =>
    have hexponent : 0#11 = -1#11 → 0#52 ≠ 0#52 := fun heq => absurd heq (by decide)
    exact absurd h (unpack_packComponents_ne_infinity hexponent)
  | finite sign' m e positive =>
    rw [UnpackedFloat.pack] at h
    dsimp only at h
    have hcount : 2 ^ Format.binary64.exponentBits = 2048 := rfl
    rw [exponentBias_binary64, mantissaBits_binary64, hcount] at h
    by_cases hlarge : 2048 ≤ (e + 1023 + 52).toNat + 1
    · rw [if_pos hlarge, unpack_packedInfinity] at h
      cases h
      exact .inr ⟨m, e, positive, rfl, by omega⟩
    · rw [if_neg hlarge] at h
      have hexponent : BitVec.ofNat 11 (e + 1023 + 52).toNat ≠ -1#11 := ofNat_ne_ones (by omega)
      split_ifs at h
      · exact absurd h (unpack_packComponents_ne_infinity fun hones => absurd hones hexponent)
      · have hzero : 0#11 ≠ -1#11 := by decide
        exact absurd h (unpack_packComponents_ne_infinity fun hones => absurd hones hzero)

/-- A normal number from one up to `bound`. -/
def NormalUpTo (bound : ℚ) (x : Float) : Prop :=
  ∃ m e, IsNormal x.toModel.unpack m e ∧ -52 ≤ e ∧ (m : ℚ) * 2 ^ e ≤ bound

theorem beq_infinity_of_unpack {x : Float} (h : ∀ sign, x.toModel.unpack ≠ .infinity sign) :
    (x == infinity) = false := by
  have hinfinity : infinity.toModel.unpack = .infinity .positive := by rfl
  change (UnpackedFloat.compare x.toModel.unpack infinity.toModel.unpack == some .eq) = false
  rw [hinfinity]
  cases hx : x.toModel.unpack with
  | infinity sign => exact absurd hx (h sign)
  | notANumber => rfl
  | zero sign => rfl
  | finite sign m e positive =>
    cases sign <;> rfl

theorem unpack_mul (x y : Float) :
    (x * y).toModel.unpack =
      unpack .binary64 (pack .binary64 (mul .binary64 x.toModel.unpack y.toModel.unpack)) := rfl

/-- A significand of full length with an exponent of 972 or more is at least as large as the first
number that overflows. -/
theorem le_value_of_exponent {m : Nat} {e : Int} (hm : 2 ^ 52 ≤ m) (he : 972 ≤ e) :
    (2 : ℚ) ^ 1024 ≤ m * 2 ^ e := by
  have hm' : (2 : ℚ) ^ 52 ≤ m := by exact_mod_cast hm
  have he' : (2 : ℚ) ^ (972 : Int) ≤ 2 ^ e := zpow_le_zpow_right₀ one_le_two he
  have hsplit : (2 : ℚ) ^ 1024 = 2 ^ 52 * 2 ^ (972 : Int) := by
    rw [zpow_ofNat, ← pow_add]
  rw [hsplit]
  exact mul_le_mul hm' he' (by positivity) (by positivity)

/-- Two last places below the end of the range there is room to round. -/
theorem two_places_below_end : ((2 : ℚ) ^ 1024 - 2 ^ 972) * (1 + 1 / 2 ^ 52) < 2 ^ 1024 := by
  have hpos : (0 : ℚ) < 2 ^ 972 := by positivity
  have hsplit : (2 : ℚ) ^ 1024 = 2 ^ 52 * 2 ^ 972 := by rw [← pow_add]
  rw [hsplit]
  generalize (2 : ℚ) ^ 972 = t at hpos
  calc (2 ^ 52 * t - t) * (1 + 1 / 2 ^ 52) = 2 ^ 52 * t - t / 2 ^ 52 := by ring
    _ < 2 ^ 52 * t := sub_lt_self _ (by positivity)

/-- The product of two normal numbers is not infinite when the bounds on them keep it two last
places below the end of the range. -/
theorem mul_ne_infinity {a b : ℚ} {x y : Float} (hx : NormalUpTo a x) (hy : NormalUpTo b y)
    (hbound : a * b ≤ 2 ^ 1024 - 2 ^ 972) : (x * y == infinity) = false := by
  obtain ⟨m₁, e₁, ⟨⟨s₁, p₁, hx⟩, hm₁, -⟩, he₁, hv₁⟩ := hx
  obtain ⟨m₂, e₂, ⟨⟨s₂, p₂, hy⟩, hm₂, -⟩, he₂, hv₂⟩ := hy
  have hmul : mul .binary64 x.toModel.unpack y.toModel.unpack =
      roundWithAccuracy .binary64 (s₁ * s₂) (m₁ * m₂) (e₁ + e₂) .exact := by
    rw [hx, hy]
    rfl
  have hproduct : 2 ^ 52 * 2 ^ 52 ≤ m₁ * m₂ := Nat.mul_le_mul hm₁ hm₂
  have hlog : 104 ≤ (m₁ * m₂).log2 := by
    refine (Nat.le_log2 (by omega)).mpr ?_
    rwa [← Nat.pow_add] at hproduct
  obtain ⟨m, e, ⟨⟨sign, positive, hround⟩, hm, -⟩, -, -, hvalue⟩ :=
    isNormal_roundWithAccuracy (s₁ * s₂) (m := m₁ * m₂) (e := e₁ + e₂) (by omega) (by omega)
  refine beq_infinity_of_unpack fun sign' hinfinity => ?_
  rw [unpack_mul, hmul, hround] at hinfinity
  obtain h | ⟨m', e', positive', h, he⟩ := infinity_of_unpack_pack hinfinity
  · cases h
  cases h
  have hexact : ((m₁ * m₂ : Nat) : ℚ) * 2 ^ (e₁ + e₂) ≤ 2 ^ 1024 - 2 ^ 972 := by
    have hsplit : ((m₁ * m₂ : Nat) : ℚ) * 2 ^ (e₁ + e₂) = m₁ * 2 ^ e₁ * (m₂ * 2 ^ e₂) := by
      rw [zpow_add₀ two_ne_zero]
      push_cast
      ring
    rw [hsplit]
    exact (mul_le_mul hv₁ hv₂ (by positivity) (le_trans (by positivity) hv₁)).trans hbound
  have hlarge : (2 : ℚ) ^ 1024 ≤ m * 2 ^ e := le_value_of_exponent hm he
  have hnonneg : (0 : ℚ) ≤ 1 + 1 / 2 ^ 52 := by norm_num
  have hscaled := mul_le_mul_of_nonneg_right hexact hnonneg
  exact absurd (hlarge.trans (hvalue.trans hscaled)) (not_le.mpr two_places_below_end)

/-- Zero times a normal number is not infinite. -/
theorem zero_mul_ne_infinity {b : ℚ} {y : Float} (hy : NormalUpTo b y) :
    ((UInt64.ofNat 0).toFloat * y == infinity) = false := by
  obtain ⟨m, e, ⟨⟨sign, positive, hy⟩, -, -⟩, -, -⟩ := hy
  have hzero : (UInt64.ofNat 0).toFloat.toModel.unpack = .zero .positive := by rfl
  refine beq_infinity_of_unpack fun sign' hinfinity => ?_
  rw [unpack_mul, hzero, hy] at hinfinity
  obtain h | ⟨m', e', positive', h, -⟩ := infinity_of_unpack_pack hinfinity
  · cases h
  · cases h

/-- A number of at least one is rounded to a normal number, unless it is out of range. -/
theorem normalUpTo_of_unpack {x : Float} {sign : Sign} {m : Nat} {e : Int} {bound : ℚ}
    (hx : x.toModel.unpack =
      unpack .binary64 (pack .binary64 (roundWithAccuracy .binary64 sign m e .exact)))
    (hm : 2 ^ 52 ≤ m) (hleast : 0 ≤ m.log2 + e) (hbound : (m : ℚ) * 2 ^ e = bound)
    (hmost : bound * (1 + 1 / 2 ^ 52) < 2 ^ 1024) : NormalUpTo (bound * (1 + 1 / 2 ^ 52)) x := by
  obtain ⟨m', e', hnormal, hlow, -, hvalue⟩ :=
    isNormal_roundWithAccuracy sign hm (show -1022 ≤ m.log2 + e by omega)
  rw [hbound] at hvalue
  have hrange : e' ≤ 971 := by
    by_contra hlarge
    have hlarge' := le_value_of_exponent hnormal.least (show 972 ≤ e' by omega)
    exact absurd (hlarge'.trans hvalue) (not_le.mpr hmost)
  rw [hnormal.unpack_pack (by omega) hrange] at hx
  refine ⟨m', e', ?_, by omega, hvalue⟩
  rw [hx]
  exact hnormal

theorem log2_mul_two_pow {m : Nat} (hm : m ≠ 0) (n : Nat) : (m * 2 ^ n).log2 = m.log2 + n := by
  have hpow : 0 < 2 ^ n := Nat.two_pow_pos n
  refine log2_eq_of_bounds ?_ ?_
  · rw [Nat.pow_add]
    exact Nat.mul_le_mul_right _ (Nat.log2_self_le hm)
  · rw [Nat.add_right_comm, Nat.pow_add]
    exact Nat.mul_lt_mul_of_pos_right Nat.lt_log2_self hpow

/-- An integer of 64 bits, read as a binary64 number. -/
theorem normalUpTo_toFloat {n : Nat} (hpos : 0 < n) (hlt : n < 2 ^ 64) :
    NormalUpTo (n * (1 + 1 / 2 ^ 52)) (UInt64.ofNat n).toFloat := by
  have hne : n ≠ 0 := by omega
  have hlog : n.log2 < 64 := (Nat.log2_lt hne).mpr hlt
  have hword : (UInt64.ofNat n).toNat = n := by
    rw [UInt64.toNat_ofNat', Nat.mod_eq_of_lt hlt]
  have hround : (UInt64.ofNat n).toFloat.toModel.unpack =
      unpack .binary64 (pack .binary64
        (UnpackedFloat.ofInt .binary64 (UInt64.ofNat n).toNat)) := rfl
  have hint : UnpackedFloat.ofInt .binary64 (n : Int) =
      roundWithAccuracy .binary64 .positive (n * 2 ^ (52 - n.log2)) (-(52 - n.log2 : Nat))
        .exact := by
    have htarget : Format.binary64.targetExponent (totalExponent n 0) = n.log2 - 52 := by
      rw [targetExponent_eq (by omega), Int.add_zero]
    have hshift : (0 - ((n.log2 : Int) - 52)).toNat = 52 - n.log2 := by omega
    have hcompare : compare (n : Int) 0 = .gt := compare_gt_iff_gt.mpr (by omega)
    rw [UnpackedFloat.ofInt, UnpackedFloat.normalize, hcompare]
    dsimp only
    rw [Int.toNat_natCast, UnpackedFloat.round, htarget, decreaseExponent, hshift, Nat.shiftLeft_eq,
      Int.zero_sub]
  have hlog' : (n * 2 ^ (52 - n.log2)).log2 = n.log2 + (52 - n.log2) := log2_mul_two_pow hne _
  have hleast : 2 ^ 52 ≤ n * 2 ^ (52 - n.log2) := by
    have hne' : n * 2 ^ (52 - n.log2) ≠ 0 := Nat.mul_ne_zero hne (Nat.two_pow_pos _).ne'
    refine (Nat.le_log2 hne').mp ?_
    omega
  rw [hword, hint] at hround
  refine normalUpTo_of_unpack hround hleast (by omega) ?_ ?_
  · rw [Nat.cast_mul, Nat.cast_pow, Nat.cast_ofNat, mul_assoc, zpow_neg, zpow_natCast,
      mul_inv_cancel₀ (by positivity), mul_one]
  · have hlt' : (n : ℚ) < 2 ^ 64 := by exact_mod_cast hlt
    calc (n : ℚ) * (1 + 1 / 2 ^ 52) ≤ n * 2 :=
          mul_le_mul_of_nonneg_left (by norm_num) (by positivity)
      _ < 2 ^ 64 * 2 := mul_lt_mul_of_pos_right hlt' two_pos
      _ = 2 ^ 65 := by norm_num
      _ ≤ 2 ^ 1024 := pow_le_pow_right₀ one_le_two (by decide)

/-- Powers of ten up to the 22nd are taken from a table of exact values; the table agrees with
rounding. -/
theorem nearest_of_le : ∀ k : Fin 23, (nearest 1 k.val).toModel =
    .pack (roundWithAccuracy .binary64 .positive (2 ^ 53 * 10 ^ k.val) (-53) .exact) := by
  decide +kernel

theorem nearest_of_lt {k : Nat} (hk : 22 < k) (hk' : k ≤ 308) : (nearest 1 k).toModel =
    .pack (roundWithAccuracy .binary64 .positive (2 ^ 53 * 10 ^ k) (-53) .exact) := by
  have hplace : ((Nat.toDigits 10 1).length : Int) + k = 1 + k := rfl
  have htable : ¬ (1 < 2 ^ 53 ∧ k ≤ 22) := by omega
  have hlarge : ¬ ((k : Int) > 2 ^ Format.binary64.exponentBits) := by
    change ¬ ((k : Int) > 2 ^ 11)
    omega
  have hsmall : ¬ ((k : Int) < -(2 ^ Format.binary64.exponentBits + (Nat.log2 1 : Int))) := by
    change ¬ ((k : Int) < -(2 ^ 11 + 0))
    omega
  have hmodel : nearest 1 k = Float.ofScientific 1 false k := by
    rw [nearest, hplace, if_neg (by omega), if_neg (by omega), if_neg (by omega)]
    rfl
  rw [hmodel, Float.ofScientific, dif_neg htable]
  change Float.Model.pack (UnpackedFloat.ofScientific .binary64 1 k) = _
  rw [UnpackedFloat.ofScientific, dif_neg Nat.one_ne_zero, if_neg hlarge, if_neg hsmall,
    if_pos (Int.natCast_nonneg k)]
  rfl

/-- A power of ten in the range of binary64 numbers. -/
theorem normalUpTo_nearest {k : Nat} (hk : k ≤ 308) :
    NormalUpTo (10 ^ k * (1 + 1 / 2 ^ 52)) (nearest 1 k) := by
  have hmodel : (nearest 1 k).toModel =
      .pack (roundWithAccuracy .binary64 .positive (2 ^ 53 * 10 ^ k) (-53) .exact) := by
    by_cases hsmall : k ≤ 22
    · exact nearest_of_le ⟨k, by omega⟩
    · exact nearest_of_lt (by omega) hk
  have hpow : 0 < 10 ^ k := Nat.pow_pos (by decide)
  have hlog : (10 ^ k * 2 ^ 53).log2 = (10 ^ k).log2 + 53 := log2_mul_two_pow hpow.ne' 53
  have hround : (nearest 1 k).toModel.unpack = unpack .binary64 (pack .binary64
      (roundWithAccuracy .binary64 .positive (10 ^ k * 2 ^ 53) (-53) .exact)) := by
    rw [hmodel, Nat.mul_comm]
    rfl
  have hleast : 2 ^ 52 ≤ 10 ^ k * 2 ^ 53 := by
    calc 2 ^ 52 ≤ 1 * 2 ^ 53 := by decide
      _ ≤ 10 ^ k * 2 ^ 53 := Nat.mul_le_mul_right _ hpow
  refine normalUpTo_of_unpack hround hleast (by omega) ?_ ?_
  · rw [Nat.cast_mul, Nat.cast_pow, Nat.cast_pow, Nat.cast_ofNat, Nat.cast_ofNat, mul_assoc,
      zpow_neg, zpow_ofNat, mul_inv_cancel₀ (by positivity), mul_one]
  · have hlargest : (10 : ℚ) ^ 308 * 3 < 2 ^ 1025 := by
      have hnat : 10 ^ 308 * 3 < 2 ^ 1025 := by decide +kernel
      exact_mod_cast hnat
    have hle : (10 : ℚ) ^ k ≤ 10 ^ 308 := pow_le_pow_right₀ (by norm_num) hk
    calc (10 : ℚ) ^ k * (1 + 1 / 2 ^ 52) ≤ 10 ^ 308 * (3 / 2) :=
          mul_le_mul hle (by norm_num) (by norm_num) (by positivity)
      _ = 10 ^ 308 * 3 / 2 := (mul_div_assoc _ _ _).symm
      _ < 2 ^ 1025 / 2 := div_lt_div_of_pos_right hlargest two_pos
      _ = 2 ^ 1024 := by rw [pow_succ, mul_div_cancel_right₀ _ two_ne_zero]

end ClaimMapping.Decimal
