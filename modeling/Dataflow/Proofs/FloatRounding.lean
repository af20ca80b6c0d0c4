import Dataflow.Json.Basic
import Mathlib

/-!
# Floats in order and rounded

How floats compare, and which float a result of arithmetic becomes.
-/

set_option autoImplicit false
set_option relaxedAutoImplicit false

/-!
## The order of floats

Floats are compared by sign, then by exponent and then by significand. So a float has a place in a
linear order (`FloatOrder.level`), and two floats that are numbers compare as their places do
(`FloatOrder.le_iff_level`): of any two one is at most the other, and comparing is transitive. A
float that is not a number compares with nothing, itself included.
-/

namespace Dataflow.FloatOrder

open Float.Model Float.Model.UnpackedFloat

/-! ### The order -/

/-- Where a float stands among all others. -/
def level : UnpackedFloat → ℤ ×ₗ ℤ ×ₗ ℤ
  | .infinity .negative => toLex (-2, toLex (0, 0))
  | .finite .negative significand exponent _ => toLex (-1, toLex (-exponent, -significand))
  | .notANumber => toLex (0, toLex (0, 0))
  | .zero _ => toLex (0, toLex (0, 0))
  | .finite .positive significand exponent _ => toLex (1, toLex (exponent, significand))
  | .infinity .positive => toLex (2, toLex (0, 0))

theorem isLE_then_iff (e e' : ℤ) (m m' : ℕ) :
    ((compare e e').then (compare m m')).isLE = true ↔ e < e' ∨ e = e' ∧ m ≤ m' := by
  rw [Ordering.isLE_then_iff_or, compare_lt_iff_lt, compare_eq_iff_eq, Nat.isLE_compare]

theorem isGE_then_iff (e e' : ℤ) (m m' : ℕ) :
    ((compare e e').then (compare m m')).isGE = true ↔ e' < e ∨ e = e' ∧ m' ≤ m := by
  rw [← Ordering.isLE_swap, Ordering.swap_then, Int.compare_swap, Nat.compare_swap, isLE_then_iff,
    eq_comm (a := e')]

/-- Numbers compare as their places do. -/
theorem le_iff {a b : UnpackedFloat} (ha : a ≠ .notANumber) (hb : b ≠ .notANumber) :
    a.le b = true ↔ level a ≤ level b := by
  rcases a with (_ | _) | _ | (_ | _) | ⟨_ | _, m, e, hm⟩ <;>
    rcases b with (_ | _) | _ | (_ | _) | ⟨_ | _, m', e', hm'⟩ <;>
    simp [UnpackedFloat.le, UnpackedFloat.compare, level, Prod.Lex.toLex_le_toLex] at ha hb ⊢
  -- what is left compares two infinities, or two floats of one sign
  case finite.negative.finite.negative => exact isGE_then_iff e e' m m'
  case finite.positive.finite.positive => exact isLE_then_iff e e' m m'
  all_goals rfl

/-- A float that is a number. -/
def IsNumber (x : Float) : Prop :=
  x.isNaN = false

theorem ne_notANumber {x : Float} (hx : IsNumber x) : x.toModel.unpack ≠ .notANumber := by
  intro hnan
  have : x.isNaN = true := by
    change x.toModel.unpack.isNaN = true
    rw [hnan]
    rfl
  exact absurd (hx.symm.trans this) (by decide)

theorem isNumber_of_ne {x : Float} (h : x.toModel.unpack ≠ .notANumber) : IsNumber x := by
  change x.toModel.unpack.isNaN = false
  cases hunpack : x.toModel.unpack with
  | notANumber => exact absurd hunpack h
  | _ => rfl

theorem le_iff_level {x y : Float} (hx : IsNumber x) (hy : IsNumber y) :
    x ≤ y ↔ level x.toModel.unpack ≤ level y.toModel.unpack := by
  rw [← le_iff (ne_notANumber hx) (ne_notANumber hy)]
  change decide (x.toModel.unpack.le y.toModel.unpack = true) = true ↔ _
  rw [decide_eq_true_iff]

theorem IsNumber.le_total {x y : Float} (hx : IsNumber x) (hy : IsNumber y) : x ≤ y ∨ y ≤ x := by
  rw [le_iff_level hx hy, le_iff_level hy hx]
  exact LinearOrder.le_total _ _

theorem IsNumber.le_trans {x y z : Float} (hx : IsNumber x) (hy : IsNumber y) (hz : IsNumber z)
    (hxy : x ≤ y) (hyz : y ≤ z) : x ≤ z := by
  rw [le_iff_level hx hz]
  exact ((le_iff_level hx hy).mp hxy).trans ((le_iff_level hy hz).mp hyz)

end Dataflow.FloatOrder

/-!
## Rounding to a float

A result is first a significand with two further bits, which tell whether what the significand lacks
is nothing, less than one half, one half or more (`FloatRounding.Stands`). Shifting keeps what the
three stand for (`Stands.shiftRight`), and rounding them takes the nearest whole number, which is
the even one of two that are equally near (`Stands.roundedMantissa_eq`).

So a result with more bits than a float holds becomes a float of full length with that whole number
as its significand (`roundWithAccuracy_normal`), one that fits stays as it is
(`roundWithAccuracy_shifted`), and one that is at most one is at most one after rounding
(`roundWithAccuracy_atMostOne`).
-/

namespace Dataflow.FloatRounding

open Float.Model Float.Model.UnpackedFloat

/-! ### The nearest whole number -/

/-- The whole number nearest to a number, and of two that are equally near the even one. -/
def nearestEven (x : ℚ) : ℤ :=
  if Int.fract x < 1 / 2 then ⌊x⌋
  else if Int.fract x = 1 / 2 then ⌊x⌋ + ⌊x⌋ % 2
  else ⌊x⌋ + 1

theorem nearestEven_intCast (n : ℤ) : nearestEven n = n := by
  rw [nearestEven, Int.fract_intCast, Int.floor_intCast, if_pos (by norm_num)]

theorem floor_le_nearestEven (x : ℚ) : ⌊x⌋ ≤ nearestEven x := by
  unfold nearestEven
  split_ifs <;> omega

theorem nearestEven_le_floor_add_one (x : ℚ) : nearestEven x ≤ ⌊x⌋ + 1 := by
  unfold nearestEven
  split_ifs <;> omega

theorem nearestEven_of_gt {x : ℚ} (h : 1 / 2 < Int.fract x) : nearestEven x = ⌊x⌋ + 1 := by
  rw [nearestEven, if_neg h.le.not_gt, if_neg h.ne']

theorem nearestEven_mono {x y : ℚ} (hxy : x ≤ y) : nearestEven x ≤ nearestEven y := by
  rcases (Int.floor_mono hxy).lt_or_eq with hlt | heq
  · exact (nearestEven_le_floor_add_one x).trans (Int.le_trans hlt (floor_le_nearestEven y))
  · -- between the same two whole numbers the rests compare as the numbers do
    have hfract : Int.fract x ≤ Int.fract y := by
      rw [← Int.self_sub_floor, ← Int.self_sub_floor, heq]
      exact sub_le_sub_right hxy _
    rcases lt_trichotomy (Int.fract x) (1 / 2) with hx | hx | hx
    · rw [nearestEven, if_pos hx, heq]
      exact floor_le_nearestEven y
    · rcases (hx.symm.trans_le hfract).eq_or_lt with hy | hy
      · rw [nearestEven, nearestEven, hx, ← hy, heq]
      · rw [nearestEven_of_gt hy, ← heq]
        exact nearestEven_le_floor_add_one x
    · rw [nearestEven_of_gt hx, nearestEven_of_gt (hx.trans_le hfract), heq]

theorem le_nearestEven {n : ℕ} {x : ℚ} (h : (n : ℚ) ≤ x) : (n : ℤ) ≤ nearestEven x := by
  rw [← nearestEven_intCast n, Int.cast_natCast]
  exact nearestEven_mono h

theorem nearestEven_le {n : ℕ} {x : ℚ} (h : x ≤ n) : nearestEven x ≤ n := by
  rw [← nearestEven_intCast n, Int.cast_natCast]
  exact nearestEven_mono h

/-! ### Significands with a rest -/

/-- A significand with two bits stands for a number: its whole part, whether its rest is at least
one half, and whether the rest is anything but nothing or one half. -/
structure Stands (em : ExtendedMantissa) (x : ℚ) : Prop where
  floor_eq : ⌊x⌋ = em.mantissa
  round_iff : em.roundBit = true ↔ 1 / 2 ≤ Int.fract x
  sticky_iff : em.stickyBit = true ↔ Int.fract x ≠ 0 ∧ Int.fract x ≠ 1 / 2

theorem floor_of_stands {m : ℕ} {accuracy : Accuracy} {x : ℚ}
    (h : Stands (.ofMantissaAndAccuracy m accuracy) x) : ⌊x⌋ = m := by
  rw [h.floor_eq]
  cases accuracy with
  | exact => rfl
  | inexact o => cases o <;> rfl

theorem stands_exact (m : ℕ) : Stands (.ofMantissaAndAccuracy m .exact) m where
  floor_eq := Int.floor_natCast m
  round_iff := by
    rw [Int.fract_natCast]
    norm_num [ExtendedMantissa.ofMantissaAndAccuracy]
  sticky_iff := by
    rw [Int.fract_natCast]
    norm_num [ExtendedMantissa.ofMantissaAndAccuracy]

theorem stands_quotient (a : ℕ) {d : ℕ} (hd : 0 < d) :
    Stands (.ofMantissaAndAccuracy (a / d) (accuracyOfFraction (a % d) d)) ((a : ℚ) / d) := by
  have hpos : (0 : ℚ) < d := Nat.cast_pos.mpr hd
  have hfloor : ⌊(a : ℚ) / d⌋ = (a / d : ℕ) := by
    rw [Int.floor_div_natCast, Int.floor_natCast, Int.natCast_div]
  have hfract : Int.fract ((a : ℚ) / d) = (a % d : ℕ) / d := by
    have hsplit : (a : ℚ) = d * (a / d : ℕ) + (a % d : ℕ) := mod_cast (Nat.div_add_mod a d).symm
    rw [← Int.self_sub_floor, hfloor, Int.cast_natCast, eq_div_iff hpos.ne', sub_mul,
      div_mul_cancel₀ _ hpos.ne']
    linarith
  have hhalf : (1 : ℚ) / 2 ≤ (a % d : ℕ) / d ↔ d ≤ 2 * (a % d) := by
    rw [div_le_div_iff₀ two_pos hpos, one_mul, mul_comm]
    exact_mod_cast Iff.rfl
  have hequal : ((a % d : ℕ) : ℚ) / d = 1 / 2 ↔ 2 * (a % d) = d := by
    rw [div_eq_div_iff hpos.ne' two_ne_zero, one_mul, mul_comm]
    exact_mod_cast Iff.rfl
  have hzero : ((a % d : ℕ) : ℚ) / d = 0 ↔ a % d = 0 := by
    rw [div_eq_zero_iff, or_iff_left hpos.ne', Nat.cast_eq_zero]
  unfold accuracyOfFraction
  split_ifs with hrest
  · refine ⟨hfloor, ?_, ?_⟩ <;> rw [hfract]
    · rw [hhalf, hrest]
      exact iff_of_false Bool.false_ne_true (by omega)
    · exact iff_of_false Bool.false_ne_true fun h ↦ h.1 (hzero.mpr hrest)
  · have hne : ((a % d : ℕ) : ℚ) / d ≠ 0 := mt hzero.mp hrest
    rcases Nat.lt_trichotomy (2 * (a % d)) d with hlt | heq | hgt
    · rw [Nat.compare_eq_lt.mpr hlt]
      refine ⟨hfloor, ?_, ?_⟩ <;> rw [hfract]
      · rw [hhalf]
        exact iff_of_false Bool.false_ne_true (by omega)
      · exact iff_of_true rfl ⟨hne, mt hequal.mp hlt.ne⟩
    · rw [Nat.compare_eq_eq.mpr heq]
      refine ⟨hfloor, ?_, ?_⟩ <;> rw [hfract]
      · rw [hhalf]
        exact iff_of_true rfl heq.ge
      · exact iff_of_false Bool.false_ne_true fun h ↦ h.2 (hequal.mpr heq)
    · rw [Nat.compare_eq_gt.mpr hgt]
      refine ⟨hfloor, ?_, ?_⟩ <;> rw [hfract]
      · rw [hhalf]
        exact iff_of_true rfl hgt.le
      · exact iff_of_true rfl ⟨hne, mt hequal.mp hgt.ne'⟩

theorem Stands.shiftRightOne {em : ExtendedMantissa} {x : ℚ} (h : Stands em x) :
    Stands em.shiftRightOne (x / 2) := by
  have hnonneg := Int.fract_nonneg x
  have hlt := Int.fract_lt_one x
  have hfloor : ⌊x / 2⌋ = (em.mantissa / 2 : ℕ) := by
    have := Int.floor_div_natCast x 2
    rw [h.floor_eq] at this
    exact_mod_cast this
  have hfract : Int.fract (x / 2) = ((em.mantissa % 2 : ℕ) + Int.fract x) / 2 := by
    have hsplit : (em.mantissa : ℚ) = 2 * (em.mantissa / 2 : ℕ) + (em.mantissa % 2 : ℕ) :=
      mod_cast (Nat.div_add_mod em.mantissa 2).symm
    rw [← Int.self_sub_floor, ← Int.self_sub_floor, hfloor, h.floor_eq, Int.cast_natCast,
      Int.cast_natCast]
    linarith
  have hany : (em.roundBit || em.stickyBit) = true ↔ Int.fract x ≠ 0 := by
    rw [Bool.or_eq_true, h.round_iff, h.sticky_iff]
    constructor
    · rintro (hround | hsticky)
      · linarith
      · exact hsticky.1
    · intro hne
      rcases eq_or_ne (Int.fract x) (1 / 2) with heq | hne'
      · exact .inl heq.ge
      · exact .inr ⟨hne, hne'⟩
  refine ⟨hfloor, ?_, ?_⟩
  · change (em.mantissa % 2 != 0) = true ↔ _
    rw [hfract]
    rcases Nat.mod_two_eq_zero_or_one em.mantissa with hbit | hbit <;> rw [hbit]
    · norm_num
      linarith
    · norm_num
      linarith
  · change (em.roundBit || em.stickyBit) = true ↔ _
    rw [hany, hfract]
    rcases Nat.mod_two_eq_zero_or_one em.mantissa with hbit | hbit <;> rw [hbit]
    · refine ⟨fun hne ↦ ⟨?_, ?_⟩, fun h hzero ↦ h.1 ?_⟩
      · simpa using hne
      · norm_num
        linarith
      · rw [hzero]
        norm_num
    · refine ⟨fun hne ↦ ⟨?_, ?_⟩, fun h hzero ↦ h.2 ?_⟩
      · norm_num
        linarith
      · norm_num
        exact hne
      · rw [hzero]
        norm_num

theorem Stands.shiftRight {em : ExtendedMantissa} {x : ℚ} (h : Stands em x) (n : ℕ) :
    Stands (em >>> n) (x / 2 ^ n) := by
  change Stands (n.repeat ExtendedMantissa.shiftRightOne em) _
  induction n with
  | zero => simpa [Nat.repeat] using h
  | succ n ih =>
    rw [Nat.repeat, pow_succ, ← div_div]
    exact ih.shiftRightOne

theorem Stands.roundedMantissa_eq {em : ExtendedMantissa} {x : ℚ} (h : Stands em x) :
    (em.roundedMantissa : ℤ) = nearestEven x := by
  obtain ⟨m, round, sticky⟩ := em
  obtain ⟨hfloor, hround, hsticky⟩ := h
  have hnonneg := Int.fract_nonneg x
  cases round with
  | false =>
    have hlt : Int.fract x < 1 / 2 := not_le.mp (mt hround.mpr Bool.false_ne_true)
    rw [nearestEven, if_pos hlt, hfloor]
    cases sticky <;> rfl
  | true =>
    have hge : 1 / 2 ≤ Int.fract x := hround.mp rfl
    cases sticky with
    | false =>
      have heq : Int.fract x = 1 / 2 := by
        by_contra hne
        exact Bool.false_ne_true (hsticky.mpr ⟨by linarith, hne⟩)
      rw [nearestEven, if_neg hge.not_gt, if_pos heq, hfloor]
      rfl
    | true =>
      rw [nearestEven_of_gt (lt_of_le_of_ne hge (hsticky.mp rfl).2.symm), hfloor]
      rfl

/-! ### Cutting a significand to length -/

/-- How many bits of a significand a float has no room for. -/
def excess (m : ℕ) (e : ℤ) : ℕ :=
  (Format.binary64.targetExponent (totalExponent m e) - e).toNat

theorem excess_eq (m : ℕ) (e : ℤ) : excess m e = (max (m.log2 + 1 + e - 53) (-1074) - e).toNat :=
  rfl

/-- A float with a significand and an exponent, which is zero if the significand is. -/
def ofParts (s : Sign) (m : ℕ) (e : ℤ) : UnpackedFloat :=
  if h : m = 0 then .zero s else .finite s m e (Nat.pos_of_ne_zero h)

theorem ofParts_of_pos (s : Sign) {m : ℕ} (e : ℤ) (h : 0 < m) : ofParts s m e = .finite s m e h :=
  dif_neg h.ne'

/-- A float with a significand that is a whole number, cut to the length floats have. -/
def finish (s : Sign) (r : ℕ) (e : ℤ) : UnpackedFloat :=
  ofParts s (r / 2 ^ excess r e) (e + excess r e)

theorem mantissa_shiftRight (r n : ℕ) :
    (ExtendedMantissa.ofMantissaAndAccuracy r .exact >>> n).mantissa = r / 2 ^ n := by
  have hfloor := ((stands_exact r).shiftRight n).floor_eq
  have hdiv : ⌊(r : ℚ) / ((2 ^ n : ℕ) : ℚ)⌋ = (r / 2 ^ n : ℕ) := by
    rw [Int.floor_div_natCast, Int.floor_natCast, Int.natCast_div]
  rw [Nat.cast_pow, Nat.cast_ofNat, hfloor] at hdiv
  exact_mod_cast hdiv

/-- Rounding takes the whole number nearest to what is left after the shift. -/
theorem roundWithAccuracy_eq {m : ℕ} {accuracy : Accuracy} {x : ℚ}
    (h : Stands (.ofMantissaAndAccuracy m accuracy) x) (s : Sign) (e : ℤ) :
    roundWithAccuracy .binary64 s m e accuracy =
      finish s (nearestEven (x / 2 ^ excess m e)).toNat (e + excess m e) := by
  have hround : (nearestEven (x / 2 ^ excess m e)).toNat =
      (ExtendedMantissa.ofMantissaAndAccuracy m accuracy >>> excess m e).roundedMantissa := by
    rw [← (h.shiftRight (excess m e)).roundedMantissa_eq, Int.toNat_natCast]
  rw [hround, finish, ← mantissa_shiftRight]
  rfl

theorem log2_eq_of_lt {r k : ℕ} (hlow : 2 ^ k ≤ r) (hhigh : r < 2 ^ (k + 1)) : r.log2 = k :=
  (Nat.log2_eq_iff (by have := Nat.two_pow_pos k; omega)).mpr ⟨hlow, hhigh⟩

/-- A significand of full length stays as it is. -/
theorem finish_full (s : Sign) {r : ℕ} {e : ℤ} (hlow : 2 ^ 52 ≤ r) (hhigh : r < 2 ^ 53)
    (he : -1074 ≤ e) : finish s r e = .finite s r e (by omega) := by
  have hexcess : excess r e = 0 := by
    rw [excess_eq, log2_eq_of_lt hlow hhigh]
    omega
  rw [finish, hexcess, pow_zero, Nat.div_one, Nat.cast_zero, add_zero, ofParts_of_pos]

/-- A significand of full length, or one past it, is cut without a loss. -/
theorem finish_normal (s : Sign) {r : ℕ} {e : ℤ} (hlow : 2 ^ 52 ≤ r) (hhigh : r ≤ 2 ^ 53)
    (he : -1074 ≤ e) :
    ∃ M E, ∃ hM : 0 < M, finish s r e = .finite s M E hM ∧ 2 ^ 52 ≤ M ∧ M < 2 ^ 53 ∧
      e ≤ E ∧ E ≤ e + 1 ∧ (M : ℚ) * 2 ^ E = r * 2 ^ e := by
  rcases hhigh.lt_or_eq with hlt | rfl
  · exact ⟨r, e, by omega, finish_full s hlow hlt he, hlow, hlt, le_rfl, by omega, rfl⟩
  · have hexcess : excess (2 ^ 53) e = 1 := by
      rw [excess_eq, Nat.log2_two_pow]
      omega
    refine ⟨2 ^ 52, e + 1, by norm_num, ?_, le_rfl, by norm_num, by omega, le_rfl, ?_⟩
    · rw [finish, hexcess]
      rfl
    · rw [zpow_add_one₀ two_ne_zero]
      push_cast
      ring

theorem log2_mul_two_pow {m : ℕ} (hm : m ≠ 0) (k : ℕ) : (m * 2 ^ k).log2 = m.log2 + k := by
  obtain ⟨hlow, hhigh⟩ := (Nat.log2_eq_iff hm).mp rfl
  refine log2_eq_of_lt ?_ ?_
  · rw [pow_add]
    exact Nat.mul_le_mul_right _ hlow
  · rw [Nat.add_right_comm, pow_add]
    exact Nat.mul_lt_mul_of_pos_right hhigh (Nat.two_pow_pos k)

/-- A significand of full length that was only shifted is found again. -/
theorem roundWithAccuracy_shifted (s : Sign) {m : ℕ} {e : ℤ} (k : ℕ) (hlow : 2 ^ 52 ≤ m)
    (hhigh : m < 2 ^ 53) (he : -1074 ≤ e) :
    roundWithAccuracy .binary64 s (m * 2 ^ k) (e - k) .exact = .finite s m e (by omega) := by
  have hexcess : excess (m * 2 ^ k) (e - k) = k := by
    rw [excess_eq, log2_mul_two_pow (by omega), log2_eq_of_lt hlow hhigh]
    omega
  have hround : (nearestEven (((m * 2 ^ k : ℕ) : ℚ) / 2 ^ k)).toNat = m := by
    rw [Nat.cast_mul, Nat.cast_pow, Nat.cast_ofNat,
      mul_div_cancel_right₀ _ (pow_ne_zero k two_ne_zero), ← Int.cast_natCast,
      nearestEven_intCast, Int.toNat_natCast]
  rw [roundWithAccuracy_eq (stands_exact _), hexcess, hround, sub_add_cancel,
    finish_full s hlow hhigh he]

/-- A significand of more than full length is rounded to full length. -/
theorem roundWithAccuracy_normal {m : ℕ} {accuracy : Accuracy} {x : ℚ}
    (h : Stands (.ofMantissaAndAccuracy m accuracy) x) (s : Sign) {e : ℤ} {k : ℕ}
    (hk : m.log2 = 52 + k) (he : -1074 ≤ e + k) :
    ∃ M E, ∃ hM : 0 < M, roundWithAccuracy .binary64 s m e accuracy = .finite s M E hM ∧
      2 ^ 52 ≤ M ∧ M < 2 ^ 53 ∧ e + k ≤ E ∧ E ≤ e + k + 1 ∧
      (M : ℚ) * 2 ^ E = nearestEven (x / 2 ^ k) * 2 ^ (e + k) := by
  have hexcess : excess m e = k := by
    rw [excess_eq, hk]
    omega
  have hm : m ≠ 0 := by
    rintro rfl
    rw [Nat.log2_zero] at hk
    omega
  obtain ⟨hmlow, hmhigh⟩ := (Nat.log2_eq_iff hm).mp hk
  have hfloor : ⌊x⌋ = m := floor_of_stands h
  have hpos : (0 : ℚ) < 2 ^ k := pow_pos two_pos k
  have hlow : ((2 ^ 52 : ℕ) : ℤ) ≤ nearestEven (x / 2 ^ k) := by
    refine le_nearestEven ((le_div_iff₀ hpos).mpr ?_)
    have : ((2 ^ (52 + k) : ℕ) : ℚ) ≤ m := Nat.cast_le.mpr hmlow
    calc ((2 ^ 52 : ℕ) : ℚ) * 2 ^ k = ((2 ^ (52 + k) : ℕ) : ℚ) := by push_cast; ring
      _ ≤ (⌊x⌋ : ℤ) := by rw [hfloor]; exact this
      _ ≤ x := Int.floor_le x
  have hhigh : nearestEven (x / 2 ^ k) ≤ ((2 ^ 53 : ℕ) : ℤ) := by
    refine nearestEven_le ((div_le_iff₀ hpos).mpr ?_)
    have : ((m + 1 : ℕ) : ℚ) ≤ ((2 ^ (52 + k + 1) : ℕ) : ℚ) := Nat.cast_le.mpr hmhigh
    calc x ≤ (⌊x⌋ : ℤ) + 1 := (Int.lt_floor_add_one x).le
      _ = ((m + 1 : ℕ) : ℚ) := by rw [hfloor]; push_cast; rfl
      _ ≤ ((2 ^ (52 + k + 1) : ℕ) : ℚ) := this
      _ = ((2 ^ 53 : ℕ) : ℚ) * 2 ^ k := by push_cast; ring
  obtain ⟨r, hr⟩ := Int.eq_ofNat_of_zero_le (le_trans (Int.natCast_nonneg _) hlow)
  rw [hr] at hlow hhigh
  rw [roundWithAccuracy_eq h, hexcess, hr]
  exact finish_normal s (by exact_mod_cast hlow) (by exact_mod_cast hhigh) he

/-! ### Floats of at most one -/

/-- Zero, or a number of full length that is at most one. -/
inductive AtMostOne : UnpackedFloat → Prop
  | zero : AtMostOne (.zero .positive)
  | finite {m : ℕ} {e : ℤ} {hm : 0 < m} (h : e < -52 ∨ e = -52 ∧ m ≤ 2 ^ 52) :
    AtMostOne (.finite .positive m e hm)

theorem AtMostOne.ne_notANumber {u : UnpackedFloat} (h : AtMostOne u) : u ≠ .notANumber := by
  rintro rfl
  cases h

theorem log2_le_of_le_two_pow {r d : ℕ} (h : r ≤ 2 ^ d) : r.log2 ≤ d := by
  rcases eq_or_ne r 0 with rfl | hr
  · simp
  · exact (Nat.pow_le_pow_iff_right (by norm_num)).mp ((Nat.log2_self_le hr).trans h)

theorem finish_atMostOne {r d : ℕ} (hr : r ≤ 2 ^ d) (hd : 52 ≤ d) :
    AtMostOne (finish .positive r (-d)) := by
  rw [finish]
  rcases Nat.eq_zero_or_pos (r / 2 ^ excess r (-d)) with hzero | hpos
  · rw [hzero]
    exact .zero
  · rw [ofParts_of_pos _ _ hpos]
    refine .finite ?_
    have hlog := log2_le_of_le_two_pow hr
    have hexcess : excess r (-d) ≤ d - 52 := by
      rw [excess_eq]
      omega
    rcases hexcess.lt_or_eq with hlt | heq
    · exact .inl (by omega)
    · refine .inr ⟨by omega, ?_⟩
      rw [heq]
      refine Nat.div_le_of_le_mul ?_
      rwa [← pow_add, Nat.sub_add_cancel hd]

/-- A number that is at most one is at most one after rounding. -/
theorem roundWithAccuracy_atMostOne {m : ℕ} {accuracy : Accuracy} {x : ℚ}
    (h : Stands (.ofMantissaAndAccuracy m accuracy) x) {d : ℕ} (hx : x ≤ 2 ^ d) (hd : 52 ≤ d) :
    AtMostOne (roundWithAccuracy .binary64 .positive m (-d) accuracy) := by
  have hm : m ≤ 2 ^ d := by
    have : ((m : ℤ) : ℚ) ≤ 2 ^ d := floor_of_stands h ▸ (Int.floor_le x).trans hx
    exact_mod_cast this
  have hexcess : excess m (-d) ≤ d - 52 := by
    have hlog := log2_le_of_le_two_pow hm
    rw [excess_eq]
    omega
  obtain ⟨k, hk⟩ : ∃ k, excess m (-d) = k := ⟨_, rfl⟩
  rw [hk] at hexcess
  have hround : nearestEven (x / 2 ^ k) ≤ ((2 ^ (d - k) : ℕ) : ℤ) := by
    refine nearestEven_le ((div_le_iff₀ (pow_pos two_pos k)).mpr (hx.trans_eq ?_))
    push_cast
    rw [← pow_add, Nat.sub_add_cancel (by omega)]
  rw [roundWithAccuracy_eq h, hk, show -(d : ℤ) + k = -((d - k : ℕ) : ℤ) by omega]
  exact finish_atMostOne (Int.toNat_le.mpr hround) (by omega)

end Dataflow.FloatRounding
