import Dataflow.Proofs.FloatRounding
import Mathlib

/-!
# Counts and shares as floats

A float is packed into bits after each operation. A float of full length comes back from its bits
(`FloatRounding.unpack_pack_full`), and a number never becomes none
(`FloatRounding.unpack_pack_ne_notANumber`).

So the float of a count has the value the count is rounded to (`FloatRounding.hasValue_ofNat`), and
rounding keeps the order of counts (`FloatRounding.roundedCount_mono`): the share one count has in a
greater one lies between zero and one, whatever was rounded on the way
(`FloatRounding.share_between`). A whole number, however great, is read as a number
(`FloatRounding.isNumber_ofInt`).
-/

set_option autoImplicit false
set_option relaxedAutoImplicit false

namespace Dataflow.FloatRounding

open Float.Model Float.Model.UnpackedFloat FloatOrder

/-! ### Floats as bits -/

theorem toNat_leading (m : BitVec 52) : (1#1 ++ m).toNat = 2 ^ 52 + m.toNat := by
  rw [BitVec.toNat_append, ← Nat.shiftLeft_add_eq_or_of_lt m.isLt]
  rfl

/-- Bits with neither the least exponent nor the greatest are a float with a leading bit. -/
theorem unpack_components_normal (s : Sign) {e : BitVec 11} (m : BitVec 52) (hmax : e ≠ -1#11)
    (hmin : e ≠ 0#11) :
    UnpackedFloat.unpack .binary64 (packComponents .binary64 s e m) =
      .finite s (2 ^ 52 + m.toNat) (e.toNat - 1075) (by omega) := by
  simp only [UnpackedFloat.unpack, unpackMantissa_packComponents, unpackExponent_packComponents,
    unpackSign_packComponents, Sign.ofBitVec_toBitVec, if_neg hmax, if_neg hmin, toNat_leading]
  rfl

theorem unpack_components_subnormal (s : Sign) (m : BitVec 52) :
    UnpackedFloat.unpack .binary64 (packComponents .binary64 s 0#11 m) =
      if h : m = 0#52 then .zero s
      else .finite s m.toNat (-1074)
        (by simpa [BitVec.toNat_pos, BitVec.pos_iff_ne_zero] using h) := by
  simp only [UnpackedFloat.unpack, unpackMantissa_packComponents, unpackExponent_packComponents,
    unpackSign_packComponents, Sign.ofBitVec_toBitVec]
  rfl

theorem unpack_components_infinity (s : Sign) :
    UnpackedFloat.unpack .binary64 (packComponents .binary64 s (-1#11) 0#52) = .infinity s := by
  simp only [UnpackedFloat.unpack, unpackMantissa_packComponents, unpackExponent_packComponents,
    unpackSign_packComponents, Sign.ofBitVec_toBitVec]
  rfl

/-! ### Packing -/

theorem unpack_pack (u : UnpackedFloat) :
    (Float.Model.pack u).unpack =
      UnpackedFloat.unpack .binary64 (UnpackedFloat.pack .binary64 u) :=
  rfl

theorem pack_finite (s : Sign) {m : ℕ} {e : ℤ} (hm : 0 < m) :
    UnpackedFloat.pack .binary64 (.finite s m e hm) =
      if 2 ^ 11 ≤ (e + 1075).toNat + 1 then packComponents .binary64 s (-1#11) 0#52
      else if m.log2 + 1 = 53 then
        packComponents .binary64 s (BitVec.ofNat 11 (e + 1075).toNat) (BitVec.ofNat 52 m)
      else packComponents .binary64 s 0#11 (BitVec.ofNat 52 m) := by
  have : e + (Format.binary64.exponentBias : ℤ) +
      (Format.binary64.mantissaBitsWithoutImplicit : ℤ) = e + 1075 := by
    change e + 1023 + 52 = e + 1075
    omega
  rw [UnpackedFloat.pack, this]
  rfl

theorem ofNat_ne_allOnes {b : ℕ} (h : b + 1 < 2 ^ 11) : BitVec.ofNat 11 b ≠ -1#11 := by
  intro heq
  have := congrArg BitVec.toNat heq
  rw [BitVec.toNat_ofNat, Nat.mod_eq_of_lt (by omega)] at this
  exact absurd (this.trans rfl : b = 2 ^ 11 - 1) (by omega)

theorem ofNat_ne_zero {b : ℕ} (h : b + 1 < 2 ^ 11) (hpos : 0 < b) : BitVec.ofNat 11 b ≠ 0#11 := by
  intro heq
  have := congrArg BitVec.toNat heq
  rw [BitVec.toNat_ofNat, Nat.mod_eq_of_lt (by omega)] at this
  exact absurd (this.trans rfl : b = 0) (by omega)

/-- A float of full length comes back from its bits. -/
theorem unpack_components_full (s : Sign) {b m : ℕ} (hb : b + 1 < 2 ^ 11) (hpos : 0 < b)
    (hlow : 2 ^ 52 ≤ m) (hhigh : m < 2 ^ 53) :
    UnpackedFloat.unpack .binary64
        (packComponents .binary64 s (BitVec.ofNat 11 b) (BitVec.ofNat 52 m)) =
      .finite s m (b - 1075) (by omega) := by
  have hm : 2 ^ 52 + (BitVec.ofNat 52 m).toNat = m := by
    rw [BitVec.toNat_ofNat]
    omega
  have he : (BitVec.ofNat 11 b).toNat = b := by
    rw [BitVec.toNat_ofNat, Nat.mod_eq_of_lt (by omega)]
  rw [unpack_components_normal s _ (ofNat_ne_allOnes hb) (ofNat_ne_zero hb hpos)]
  simp only [hm, he]

theorem unpack_pack_full (s : Sign) {m : ℕ} {e : ℤ} (hm : 0 < m) (hlow : 2 ^ 52 ≤ m)
    (hhigh : m < 2 ^ 53) (helow : -1074 ≤ e) (hehigh : e ≤ 971) :
    (Float.Model.pack (.finite s m e hm)).unpack = .finite s m e hm := by
  rw [unpack_pack, pack_finite, if_neg (by omega),
    if_pos (congrArg (· + 1) (log2_eq_of_lt hlow hhigh)),
    unpack_components_full s (by omega) (by omega) hlow hhigh]
  simp only [show ((e + 1075).toNat : ℤ) - 1075 = e by omega]

/-- Packing makes a number into a number. -/
theorem unpack_pack_ne_notANumber {u : UnpackedFloat} (h : u ≠ .notANumber) :
    (Float.Model.pack u).unpack ≠ .notANumber := by
  rw [unpack_pack]
  cases u with
  | notANumber => exact absurd rfl h
  | infinity s =>
    change UnpackedFloat.unpack .binary64 (packComponents .binary64 s (-1#11) 0#52) ≠ _
    rw [unpack_components_infinity]
    exact nofun
  | zero s =>
    change UnpackedFloat.unpack .binary64 (packComponents .binary64 s 0#11 0#52) ≠ _
    rw [unpack_components_subnormal]
    exact nofun
  | finite s m e hm =>
    rw [pack_finite]
    split_ifs with hmax hfull
    · rw [unpack_components_infinity]
      exact nofun
    · rcases Nat.eq_zero_or_pos (e + 1075).toNat with hzero | hpos
      · rw [hzero, unpack_components_subnormal]
        split_ifs <;> exact nofun
      · rw [unpack_components_normal s _ (ofNat_ne_allOnes (by omega))
          (ofNat_ne_zero (by omega) hpos)]
        exact nofun
    · rw [unpack_components_subnormal]
      split_ifs <;> exact nofun

/-- Bits with the least exponent are a float that is far less than one. -/
theorem atMostOne_subnormal (m : BitVec 52) :
    AtMostOne (UnpackedFloat.unpack .binary64 (packComponents .binary64 .positive 0#11 m)) := by
  rw [unpack_components_subnormal]
  split_ifs
  · exact .zero
  · exact .finite (.inl (by omega))

/-- Packing keeps a float at most one. -/
theorem AtMostOne.pack {u : UnpackedFloat} (h : AtMostOne u) :
    AtMostOne (Float.Model.pack u).unpack := by
  rw [unpack_pack]
  cases h with
  | zero => exact atMostOne_subnormal 0#52
  | @finite m e hm h =>
    rw [pack_finite, if_neg (by omega)]
    split_ifs with hfull
    · rcases Nat.eq_zero_or_pos (e + 1075).toNat with hzero | hpos
      · rw [hzero]
        exact atMostOne_subnormal _
      · obtain ⟨hlow, hhigh⟩ := (Nat.log2_eq_iff hm.ne').mp (Nat.succ.inj hfull)
        rw [unpack_components_full .positive (by omega) hpos hlow hhigh]
        exact .finite (by omega)
    · exact atMostOne_subnormal _

/-- The floats of at most one lie between zero and one. -/
theorem AtMostOne.between {x : Float} (h : AtMostOne x.toModel.unpack) : 0 ≤ x ∧ x ≤ 1 := by
  have hx : IsNumber x := isNumber_of_ne h.ne_notANumber
  have hzero : (0 : Float).toModel.unpack = .zero .positive := rfl
  have hone : (1 : Float).toModel.unpack = .finite .positive (2 ^ 52) (-52) (by norm_num) := rfl
  have hzeroNumber : IsNumber 0 := isNumber_of_ne (hzero ▸ AtMostOne.zero.ne_notANumber)
  have honeNumber : IsNumber 1 :=
    isNumber_of_ne (hone ▸ (AtMostOne.finite (.inr ⟨rfl, le_rfl⟩)).ne_notANumber)
  rw [le_iff_level hzeroNumber hx, le_iff_level hx honeNumber, hzero, hone]
  generalize x.toModel.unpack = u at h
  cases h with
  | zero => simp [level, Prod.Lex.toLex_le_toLex]
  | finite h =>
    simp only [level, Prod.Lex.toLex_le_toLex]
    norm_num
    omega

/-! ### Counts -/

/-- A positive float of full length has a value. -/
def HasValue (u : UnpackedFloat) (v : ℚ) : Prop :=
  ∃ M E, ∃ hM : 0 < M, u = .finite .positive M E hM ∧ 2 ^ 52 ≤ M ∧ M < 2 ^ 53 ∧
    (M : ℚ) * 2 ^ E = v

/-- A count with no more significant bits than a float holds. -/
def roundedCount (n : ℕ) : ℚ :=
  nearestEven (n / 2 ^ ((n.log2 : ℤ) - 52)) * 2 ^ ((n.log2 : ℤ) - 52)

theorem unit_pos (n : ℕ) : (0 : ℚ) < 2 ^ ((n.log2 : ℤ) - 52) :=
  zpow_pos two_pos _

theorem two_pow_eq_unit_mul (n k : ℕ) :
    (2 : ℚ) ^ (n.log2 + k) = ((2 ^ (52 + k) : ℕ) : ℚ) * 2 ^ ((n.log2 : ℤ) - 52) := by
  push_cast
  rw [← zpow_natCast, ← zpow_natCast, ← zpow_add₀ two_ne_zero]
  congr 1
  omega

theorem two_pow_log2_le_roundedCount {n : ℕ} (hn : 0 < n) : (2 : ℚ) ^ n.log2 ≤ roundedCount n := by
  have hlow : ((2 ^ n.log2 : ℕ) : ℚ) ≤ n := Nat.cast_le.mpr (Nat.log2_self_le hn.ne')
  rw [← Nat.add_zero n.log2, two_pow_eq_unit_mul, roundedCount, ← Int.cast_natCast]
  refine mul_le_mul_of_nonneg_right (Int.cast_le.mpr (le_nearestEven ?_)) (unit_pos n).le
  refine (le_div_iff₀ (unit_pos n)).mpr ?_
  rwa [← two_pow_eq_unit_mul, Nat.add_zero, ← Nat.cast_two, ← Nat.cast_pow]

theorem roundedCount_le_two_pow (n : ℕ) : roundedCount n ≤ (2 : ℚ) ^ (n.log2 + 1) := by
  have hhigh : (n : ℚ) ≤ ((2 ^ (n.log2 + 1) : ℕ) : ℚ) := Nat.cast_le.mpr Nat.lt_log2_self.le
  rw [two_pow_eq_unit_mul, roundedCount, ← Int.cast_natCast (2 ^ (52 + 1))]
  refine mul_le_mul_of_nonneg_right (Int.cast_le.mpr (nearestEven_le ?_)) (unit_pos n).le
  refine (div_le_iff₀ (unit_pos n)).mpr ?_
  rwa [← two_pow_eq_unit_mul, ← Nat.cast_two, ← Nat.cast_pow]

/-- The greater count is at least as great after rounding. -/
theorem roundedCount_mono {n n' : ℕ} (hn : 0 < n) (h : n ≤ n') :
    roundedCount n ≤ roundedCount n' := by
  have hlog : n.log2 ≤ n'.log2 :=
    (Nat.le_log2 (hn.trans_le h).ne').mpr ((Nat.log2_self_le hn.ne').trans h)
  rcases hlog.lt_or_eq with hlt | heq
  · calc roundedCount n ≤ 2 ^ (n.log2 + 1) := roundedCount_le_two_pow n
      _ ≤ 2 ^ n'.log2 := pow_le_pow_right₀ one_le_two hlt
      _ ≤ roundedCount n' := two_pow_log2_le_roundedCount (hn.trans_le h)
  · rw [roundedCount, roundedCount, heq]
    refine mul_le_mul_of_nonneg_right (Int.cast_le.mpr (nearestEven_mono ?_)) (unit_pos n').le
    exact div_le_div_of_nonneg_right (Nat.cast_le.mpr h) (unit_pos n').le

/-- A count of at most 53 bits has a significand of full length after a shift. -/
theorem count_full {n : ℕ} (hpos : 0 < n) (hn : n < 2 ^ 53) :
    2 ^ 52 ≤ n * 2 ^ (52 - n.log2) ∧ n * 2 ^ (52 - n.log2) < 2 ^ 53 := by
  have hlog : n.log2 < 53 := (Nat.log2_lt hpos.ne').mpr hn
  have hlength : (n * 2 ^ (52 - n.log2)).log2 = 52 := by
    rw [log2_mul_two_pow hpos.ne']
    omega
  exact (Nat.log2_eq_iff (Nat.mul_pos hpos (Nat.two_pow_pos _)).ne').mp hlength

theorem round_count {n : ℕ} (hpos : 0 < n) (hn : n < 2 ^ 53) :
    UnpackedFloat.ofNat .binary64 n =
      .finite .positive (n * 2 ^ (52 - n.log2)) ((n.log2 : ℤ) - 52)
        (Nat.mul_pos hpos (Nat.two_pow_pos _)) := by
  have hlog : n.log2 < 53 := (Nat.log2_lt hpos.ne').mpr hn
  obtain ⟨hlow, hhigh⟩ := count_full hpos hn
  have hround : UnpackedFloat.ofNat .binary64 n =
      UnpackedFloat.round .binary64 .positive n 0 := by
    rw [UnpackedFloat.ofNat, UnpackedFloat.ofInt, UnpackedFloat.normalize,
      Int.compare_eq_gt.mpr (by omega : (0 : ℤ) < n)]
    rfl
  have hshift : ((0 : ℤ) - Format.binary64.targetExponent (totalExponent n 0)).toNat =
      52 - n.log2 := by
    change ((0 : ℤ) - max ((n.log2 : ℤ) + 1 + 0 - 53) (-1074)).toNat = _
    omega
  have hsame := roundWithAccuracy_shifted .positive (e := (n.log2 : ℤ) - 52) 0 hlow hhigh (by omega)
  rw [pow_zero, Nat.mul_one, Nat.cast_zero, sub_zero] at hsame
  rw [hround, UnpackedFloat.round, decreaseExponent, hshift, Nat.shiftLeft_eq,
    show (0 : ℤ) - (52 - n.log2 : ℕ) = (n.log2 : ℤ) - 52 by omega]
  exact hsame

/-- A count of at most 53 bits is a float as it is: it is multiplied by one. -/
theorem unpack_ofNat_small {n : ℕ} (hpos : 0 < n) (hn : n < 2 ^ 53) :
    (Float.ofNat n).toModel.unpack =
      .finite .positive (n * 2 ^ (52 - n.log2)) ((n.log2 : ℤ) - 52)
        (Nat.mul_pos hpos (Nat.two_pow_pos _)) := by
  have hlog : n.log2 < 53 := (Nat.log2_lt hpos.ne').mpr hn
  obtain ⟨hlow, hhigh⟩ := count_full hpos hn
  have hnat : n.toUInt64.toNat = n := by
    rw [UInt64.toNat_ofNat']
    exact Nat.mod_eq_of_lt (by omega)
  have hfast : (Float.ofNat n).toModel =
      (Float.Model.pack (UnpackedFloat.ofNat .binary64 n.toUInt64.toNat)).mul
        (Float.exactlyRepresentablePowersOfTen[0]).toModel := by
    change (Float.ofScientific n false 0).toModel = _
    rw [Float.ofScientific, dif_pos ⟨hn, by norm_num⟩]
    rfl
  have hone : (Float.exactlyRepresentablePowersOfTen[0]).toModel.unpack =
      .finite .positive (2 ^ 52) (-52) (by norm_num) := rfl
  rw [hfast, hnat, round_count hpos hn, Float.Model.mul, hone,
    unpack_pack_full .positive _ hlow hhigh (by omega) (by omega)]
  change (Float.Model.pack (roundWithAccuracy .binary64 .positive _ ((n.log2 : ℤ) - 52 - (52 : ℕ))
    .exact)).unpack = _
  rw [roundWithAccuracy_shifted .positive 52 hlow hhigh (by omega),
    unpack_pack_full .positive _ hlow hhigh (by omega) (by omega)]

theorem roundedCount_small {n : ℕ} (hlog : n.log2 ≤ 52) : roundedCount n = n := by
  have hwhole : (n : ℚ) / 2 ^ ((n.log2 : ℤ) - 52) = ((n * 2 ^ (52 - n.log2) : ℕ) : ℤ) := by
    rw [div_eq_iff (unit_pos n).ne']
    push_cast
    rw [mul_assoc, ← zpow_natCast, ← zpow_add₀ two_ne_zero, Nat.cast_sub hlog]
    simp
  rw [roundedCount, hwhole, nearestEven_intCast, ← hwhole, div_mul_cancel₀ _ (unit_pos n).ne']

/-- A greater count is rounded once. -/
theorem ofNat_large {n : ℕ} (hn : 2 ^ 53 ≤ n) :
    (Float.ofNat n).toModel =
      Float.Model.pack (roundWithAccuracy .binary64 .positive (n * 2 ^ 53) (-53) .exact) := by
  change (Float.ofScientific n false 0).toModel = _
  rw [Float.ofScientific, dif_neg fun h ↦ absurd h.1 (by omega)]
  change Float.Model.ofScientific n 0 = _
  rw [Float.Model.ofScientific, UnpackedFloat.ofScientific, dif_neg (by omega),
    if_neg (by norm_num), if_neg (by norm_num),
    if_pos le_rfl]
  change Float.Model.pack
    (roundWithAccuracy .binary64 .positive (n <<< 53 * 1) (-53 + 0) .exact) = _
  rw [Nat.shiftLeft_eq, Nat.mul_one, Int.add_zero]

/-- A count becomes a float that has its rounded value. -/
theorem hasValue_ofNat {n : ℕ} (hpos : 0 < n) (hn : n < 2 ^ 64) :
    HasValue (Float.ofNat n).toModel.unpack (roundedCount n) := by
  rcases Nat.lt_or_ge n (2 ^ 53) with hsmall | hlarge
  · have hlog : n.log2 < 53 := (Nat.log2_lt hpos.ne').mpr hsmall
    obtain ⟨hlow, hhigh⟩ := count_full hpos hsmall
    refine ⟨_, _, _, unpack_ofNat_small hpos hsmall, hlow, hhigh, ?_⟩
    rw [roundedCount_small (by omega), Nat.cast_mul, Nat.cast_pow, Nat.cast_ofNat, mul_assoc,
      ← zpow_natCast, ← zpow_add₀ two_ne_zero, Nat.cast_sub (by omega)]
    simp
  · have hlow : 53 ≤ n.log2 := (Nat.le_log2 hpos.ne').mpr hlarge
    have hhigh : n.log2 < 64 := (Nat.log2_lt hpos.ne').mpr hn
    obtain ⟨M, E, hM, hround, hMlow, hMhigh, hElow, hEhigh, hvalue⟩ :=
      roundWithAccuracy_normal (stands_exact (n * 2 ^ 53)) .positive (e := -53) (k := n.log2 + 1)
        (by rw [log2_mul_two_pow hpos.ne']; omega) (by omega)
    refine ⟨M, E, hM, ?_, hMlow, hMhigh, ?_⟩
    · rw [ofNat_large hlarge, hround]
      exact unpack_pack_full .positive hM hMlow hMhigh (by omega) (by omega)
    · have hunit : (-53 : ℤ) + (n.log2 + 1 : ℕ) = (n.log2 : ℤ) - 52 := by omega
      have hscale : ((n * 2 ^ 53 : ℕ) : ℚ) / 2 ^ (n.log2 + 1) = n / 2 ^ ((n.log2 : ℤ) - 52) := by
        rw [← hunit, zpow_add₀ two_ne_zero, zpow_natCast]
        push_cast
        rw [zpow_neg]
        field_simp
        norm_num
      rw [hvalue, hunit, hscale, roundedCount]

/-! ### Shares -/

/-- Of two floats of full length the one with the greater exponent is the greater. -/
theorem exponent_le {m₁ m₂ : ℕ} {e₁ e₂ : ℤ} (hm₁ : 2 ^ 52 ≤ m₁) (hm₂ : m₂ < 2 ^ 53)
    (h : (m₁ : ℚ) * 2 ^ e₁ ≤ m₂ * 2 ^ e₂) : e₁ ≤ e₂ := by
  by_contra hlt
  have h₁ : ((2 ^ 52 : ℕ) : ℚ) ≤ m₁ := Nat.cast_le.mpr hm₁
  have h₂ : (m₂ : ℚ) < ((2 ^ 53 : ℕ) : ℚ) := Nat.cast_lt.mpr hm₂
  have hpos : (0 : ℚ) < 2 ^ e₂ := zpow_pos two_pos _
  refine absurd h (not_le.mpr ?_)
  calc (m₂ : ℚ) * 2 ^ e₂ < ((2 ^ 53 : ℕ) : ℚ) * 2 ^ e₂ := mul_lt_mul_of_pos_right h₂ hpos
    _ = ((2 ^ 52 : ℕ) : ℚ) * 2 ^ (e₂ + 1) := by
      rw [zpow_add_one₀ two_ne_zero]
      push_cast
      ring
    _ ≤ ((2 ^ 52 : ℕ) : ℚ) * 2 ^ e₁ :=
      mul_le_mul_of_nonneg_left (zpow_le_zpow_right₀ one_le_two (by omega)) (Nat.cast_nonneg _)
    _ ≤ m₁ * 2 ^ e₁ := mul_le_mul_of_nonneg_right h₁ (zpow_pos two_pos _).le

/-- A float divided by one that is at least as great gives at most one. -/
theorem div_atMostOne {a b : UnpackedFloat} {v w : ℚ} (ha : HasValue a v) (hb : HasValue b w)
    (h : v ≤ w) : AtMostOne (UnpackedFloat.div .binary64 a b) := by
  obtain ⟨m₁, e₁, hpos₁, rfl, hlow₁, hhigh₁, rfl⟩ := ha
  obtain ⟨m₂, e₂, hpos₂, rfl, hlow₂, hhigh₂, rfl⟩ := hb
  have he : e₁ ≤ e₂ := exponent_le hlow₁ hhigh₂ h
  -- the exponent `-d` of the quotient before it is rounded
  obtain ⟨d, hd, hd52⟩ : ∃ d : ℕ, min (e₁ - e₂) (Format.binary64.targetExponent
      (totalExponent m₁ e₁ - totalExponent m₂ e₂)) = -d ∧ 52 ≤ d := by
    refine ⟨(max (e₂ - e₁) (min (e₂ - e₁ + 53) 1074)).toNat, ?_, by omega⟩
    change min (e₁ - e₂) (max ((m₁.log2 : ℤ) + 1 + e₁ - (m₂.log2 + 1 + e₂) - 53) (-1074)) = _
    rw [log2_eq_of_lt hlow₁ hhigh₁, log2_eq_of_lt hlow₂ hhigh₂]
    omega
  obtain ⟨shift, hshift⟩ : ∃ shift : ℕ, e₁ - e₂ - -(d : ℤ) = shift :=
    Int.eq_ofNat_of_zero_le (by rw [← hd]; omega)
  have hquotient : ((m₁ <<< shift : ℕ) : ℚ) / m₂ ≤ 2 ^ d := by
    rw [div_le_iff₀ (Nat.cast_pos.mpr hpos₂), Nat.shiftLeft_eq]
    push_cast
    calc (m₁ : ℚ) * 2 ^ shift = m₁ * 2 ^ e₁ * 2 ^ (d - e₂ : ℤ) := by
          rw [mul_assoc, ← zpow_add₀ two_ne_zero, ← zpow_natCast, ← hshift]
          congr 2
          omega
      _ ≤ m₂ * 2 ^ e₂ * 2 ^ (d - e₂ : ℤ) := mul_le_mul_of_nonneg_right h (zpow_pos two_pos _).le
      _ = 2 ^ d * m₂ := by
          rw [mul_assoc, ← zpow_add₀ two_ne_zero, add_sub_cancel, zpow_natCast, mul_comm]
  have hround := roundWithAccuracy_atMostOne (stands_quotient (m₁ <<< shift) hpos₂) hquotient hd52
  rw [← Int.toNat_natCast shift, ← hshift, ← hd] at hround
  exact hround

/-- The share one count has in another lies between zero and one. -/
theorem share_between {part whole : ℕ} (h : part ≤ whole) (hpos : 0 < whole)
    (hwhole : whole < 2 ^ 64) :
    0 ≤ Float.ofNat part / Float.ofNat whole ∧ Float.ofNat part / Float.ofNat whole ≤ 1 := by
  have hunpack : (Float.ofNat part / Float.ofNat whole).toModel.unpack =
      (Float.Model.pack (UnpackedFloat.div .binary64 (Float.ofNat part).toModel.unpack
        (Float.ofNat whole).toModel.unpack)).unpack := rfl
  have hvalue := hasValue_ofNat hpos hwhole
  refine AtMostOne.between (hunpack ▸ AtMostOne.pack ?_)
  rcases Nat.eq_zero_or_pos part with rfl | hpart
  · obtain ⟨m, e, hm, hfinite, -⟩ := hvalue
    rw [hfinite]
    exact .zero
  · exact div_atMostOne (hasValue_ofNat hpart (h.trans_lt hwhole)) hvalue
      (roundedCount_mono hpart h)

/-! ### Whole numbers -/

theorem roundWithAccuracy_ne_notANumber (format : Format) (s : Sign) (m : ℕ) (e : ℤ)
    (accuracy : Accuracy) : roundWithAccuracy format s m e accuracy ≠ .notANumber := by
  unfold roundWithAccuracy
  dsimp only
  split_ifs <;> exact nofun

theorem isNumber_ofNat (n : ℕ) : IsNumber (Float.ofNat n) := by
  refine isNumber_of_ne ?_
  rcases Nat.eq_zero_or_pos n with rfl | hpos
  · exact fun h ↦ UnpackedFloat.noConfusion (h : UnpackedFloat.zero .positive = .notANumber)
  · rcases Nat.lt_or_ge n (2 ^ 53) with hsmall | hlarge
    · rw [unpack_ofNat_small hpos hsmall]
      exact nofun
    · rw [ofNat_large hlarge]
      exact unpack_pack_ne_notANumber (roundWithAccuracy_ne_notANumber _ _ _ _ _)

/-- A whole number, however great, is read as a number. -/
theorem isNumber_ofInt (n : ℤ) : IsNumber (Float.ofInt n) := by
  cases n with
  | ofNat n => exact isNumber_ofNat n
  | negSucc n =>
    refine isNumber_of_ne
      (unpack_pack_ne_notANumber (u := (Float.ofNat (n + 1)).toModel.unpack.neg) ?_)
    have := ne_notANumber (isNumber_ofNat (n + 1))
    generalize (Float.ofNat (n + 1)).toModel.unpack = u at this
    cases u with
    | notANumber => exact absurd rfl this
    | _ => exact nofun

end Dataflow.FloatRounding
