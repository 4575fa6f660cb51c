import ScriptTree.Number.Shortest
import ScriptTree.Proofs.Number.Nearest

/-!
The shortest decimal of a number reads back as the number. Seventeen digits are always enough,
as a grid of so many digits is finer than the numbers are.
-/

namespace ScriptTree

def Decimal.value (d : Decimal) : ℚ := d.digits * 10 ^ d.exponent

namespace Number

variable {x : Number}

/-! The interval of a number. -/

namespace Interval

def low (i : Interval) : ℚ := i.lower / i.denominator

def mid (i : Interval) : ℚ := i.value / i.denominator

def high (i : Interval) : ℚ := i.upper / i.denominator

theorem contains_iff {i : Interval} (hdenominator : 0 < i.denominator) (digits : ℕ)
    (exponent : ℤ) :
    i.contains digits exponent = true ↔
      if i.closed then i.low ≤ digits * 10 ^ exponent ∧ (digits : ℚ) * 10 ^ exponent ≤ i.high
      else i.low < digits * 10 ^ exponent ∧ (digits : ℚ) * 10 ^ exponent < i.high := by
  have hpos : (0 : ℚ) < i.denominator := by exact_mod_cast hdenominator
  simp only [low, high, div_le_iff₀ hpos, le_div_iff₀ hpos, div_lt_iff₀ hpos, lt_div_iff₀ hpos]
  cases exponent with
  | ofNat k =>
      simp only [contains, Nat.pow_eq, mul_one, Int.ofNat_eq_natCast, zpow_natCast]
      split <;> simp only [Bool.and_eq_true, decide_eq_true_eq] <;> norm_cast
  | negSucc k =>
      have hten : (0 : ℚ) < 10 ^ (k + 1) := by positivity
      have hmul : (digits : ℚ) * (10 ^ (k + 1))⁻¹ * i.denominator =
          digits * i.denominator / 10 ^ (k + 1) := by
        field_simp
      simp only [contains, Nat.pow_eq, zpow_negSucc, hmul, div_le_iff₀ hten, le_div_iff₀ hten,
        div_lt_iff₀ hten, lt_div_iff₀ hten]
      split <;> simp only [Bool.and_eq_true, decide_eq_true_eq] <;> norm_cast

theorem inUnits_spec {i : Interval} (hdenominator : 0 < i.denominator) (exponent : ℤ) :
    0 < (i.inUnits exponent).2 ∧
      ((i.inUnits exponent).1 : ℚ) / (i.inUnits exponent).2 = i.mid / 10 ^ exponent := by
  cases exponent with
  | ofNat k =>
      refine ⟨Nat.mul_pos hdenominator (Nat.pow_pos (by decide)), ?_⟩
      simp [inUnits, mid, div_div]
  | negSucc k =>
      refine ⟨hdenominator, ?_⟩
      simp only [inUnits, mid, Nat.pow_eq, Nat.cast_mul, Nat.cast_pow, Nat.cast_ofNat,
        zpow_negSucc, div_inv_eq_mul]
      ring

theorem below_iff {i : Interval} (hdenominator : 0 < i.denominator) (exponent : ℤ) :
    i.below exponent = true ↔ i.mid < 10 ^ exponent := by
  obtain ⟨hunit, hvalue⟩ := inUnits_spec hdenominator exponent
  have hpos : (0 : ℚ) < (i.inUnits exponent).2 := by exact_mod_cast hunit
  have hten : (0 : ℚ) < 10 ^ exponent := by positivity
  rw [below, decide_eq_true_eq, ← div_lt_one hten, ← hvalue, div_lt_one hpos]
  norm_cast

theorem roundHalfEven_cases (a b : ℕ) :
    roundHalfEven a b = a / b ∨ roundHalfEven a b = a / b + 1 := by
  rw [roundHalfEven]
  split
  · exact .inl rfl
  · split
    · omega
    · exact .inr rfl

theorem contains_of_onGrid? {i : Interval} {exponent : ℤ} {d : Decimal}
    (hgrid : i.onGrid? exponent = some d) : i.contains d.digits d.exponent = true := by
  rw [onGrid?] at hgrid
  split at hgrid
  next hfloor hceil =>
    obtain rfl := Option.some.inj hgrid
    rcases roundHalfEven_cases (i.inUnits exponent).1 (i.inUnits exponent).2 with h | h <;>
      simpa only [h]
  next hfloor _ =>
    obtain rfl := Option.some.inj hgrid
    exact hfloor
  next _ hceil =>
    obtain rfl := Option.some.inj hgrid
    exact hceil
  next => cases hgrid

/-- A grid that is finer than the interval is long has a decimal in it. -/
theorem exists_onGrid? {i : Interval} (hdenominator : 0 < i.denominator) {exponent : ℤ}
    (hlow : i.low < i.mid) (hhigh : i.mid < i.high)
    (hfine : (10 : ℚ) ^ exponent < i.high - i.low) : ∃ d, i.onGrid? exponent = some d := by
  obtain ⟨hunit, hvalue⟩ := inUnits_spec hdenominator exponent
  have hpos : (0 : ℚ) < (i.inUnits exponent).2 := by exact_mod_cast hunit
  have hten : (0 : ℚ) < 10 ^ exponent := by positivity
  rw [onGrid?]
  generalize i.inUnits exponent = units at hunit hvalue hpos ⊢
  have hfloor : ((units.1 / units.2 : ℕ) : ℚ) * 10 ^ exponent ≤ i.mid := by
    rw [← le_div_iff₀ hten, ← hvalue]
    exact Nat.cast_div_le
  have hceil : i.mid < ((units.1 / units.2 + 1 : ℕ) : ℚ) * 10 ^ exponent := by
    rw [← div_lt_iff₀ hten, ← hvalue, div_lt_iff₀ hpos, mul_comm]
    exact_mod_cast Nat.lt_mul_div_succ units.1 hunit
  have houtside {n : ℕ} (hn : i.contains n exponent = false) :
      (n : ℚ) * 10 ^ exponent ≤ i.low ∨ i.high ≤ n * 10 ^ exponent := by
    rw [← Bool.not_eq_true, contains_iff hdenominator] at hn
    by_contra hinside
    obtain ⟨h, h'⟩ := not_or.mp hinside
    rw [not_le] at h h'
    apply hn
    split
    · exact ⟨h.le, h'.le⟩
    · exact ⟨h, h'⟩
  split
  next => exact ⟨_, rfl⟩
  next => exact ⟨_, rfl⟩
  next => exact ⟨_, rfl⟩
  next hout hout' =>
    rcases houtside hout with h | h
    · rcases houtside hout' with h' | h'
      · exact absurd (hceil.trans_le h') hlow.not_gt
      · push_cast at h'
        linarith
    · exact absurd (h.trans hfloor) (not_le.mpr hhigh)

end Interval

theorem interval_spec (hzero : x.isZero = false) :
    0 < x.interval.denominator ∧ (x.interval.closed = true ↔ x.significand % 2 = 0) ∧
      x.interval.low = (x.significand - x.gap) * 2 ^ x.binaryExponent ∧
      x.interval.mid = x.significand * 2 ^ x.binaryExponent ∧
      x.interval.high = (x.significand + 1 / 2) * 2 ^ x.binaryExponent := by
  have hpos := significand_pos hzero
  obtain ⟨below, hbelow, hle, hgap⟩ : ∃ below : ℕ,
      (if x.fraction = 0 && 1 < x.exponentField then 1 else 2) = below ∧
        below ≤ 4 * x.significand ∧ x.gap = below / 4 := by
    refine ⟨_, rfl, ?_, ?_⟩
    · split <;> omega
    · rw [gap]
      split <;> norm_num
  have hquarter : x.binaryExponent = x.binaryExponent - 2 + 2 := by omega
  have hpow : (2 : ℚ) ^ x.binaryExponent = 2 ^ (x.binaryExponent - 2) * 4 := by
    rw [hquarter, zpow_add₀ (by norm_num)]
    norm_num
  rw [hpow, hgap]
  simp only [interval, Interval.low, Interval.mid, Interval.high, hbelow]
  cases x.binaryExponent - 2 with
  | ofNat k =>
      refine ⟨Nat.one_pos, by simp, ?_, ?_, ?_⟩
      all_goals
        simp only [Nat.pow_eq, Int.ofNat_eq_natCast, zpow_natCast, Nat.cast_one, div_one]
        push_cast [Nat.cast_sub hle]
        ring
  | negSucc k =>
      refine ⟨Nat.pow_pos (by decide), by simp, ?_, ?_, ?_⟩
      all_goals
        simp only [Nat.pow_eq, zpow_negSucc]
        push_cast [Nat.cast_sub hle]
        ring

/-- The interval holds the decimals that are read as the number. -/
theorem contains_interval_iff (hzero : x.isZero = false) (d : Decimal) :
    x.interval.contains d.digits d.exponent = true ↔ x.Absorbs d.value := by
  obtain ⟨hdenominator, hclosed, hlow, -, hhigh⟩ := interval_spec hzero
  have hpow : (0 : ℚ) < 2 ^ x.binaryExponent := by positivity
  rw [Interval.contains_iff hdenominator, hlow, hhigh, ← Decimal.value]
  simp only [← le_div_iff₀ hpow, ← div_le_iff₀ hpow, ← lt_div_iff₀ hpow, ← div_lt_iff₀ hpow]
  split
  next heven =>
    exact ⟨fun h => ⟨h.1, h.2, fun _ => hclosed.mp heven⟩, fun h => ⟨h.low, h.high⟩⟩
  next hodd =>
    constructor
    · rintro ⟨h, h'⟩
      exact ⟨h.le, h'.le, fun htie => (htie.elim h.ne' h'.ne).elim⟩
    · intro h
      have htie := mt h.tie (mt hclosed.mpr hodd)
      rw [not_or] at htie
      exact ⟨lt_of_le_of_ne h.low (Ne.symm htie.1), lt_of_le_of_ne h.high htie.2⟩

/-! The order of a number. -/

/-- Three binary places and a third make more than a decimal one. -/
theorem ten_zpow_le_of_nonneg {j b : ℤ} (hj : 0 ≤ j) (hle : 10 * j ≤ 3 * b) :
    (10 : ℚ) ^ j ≤ 2 ^ b := by
  have hcube : ((10 : ℚ) ^ j) ^ 3 ≤ (2 ^ b) ^ 3 := by
    calc ((10 : ℚ) ^ j) ^ 3 = (10 ^ 3) ^ j := by
          rw [← zpow_natCast, ← zpow_mul, ← zpow_natCast 10 3, ← zpow_mul, mul_comm]
      _ ≤ (2 ^ 10) ^ j := zpow_le_zpow_left₀ hj (by norm_num) (by norm_num)
      _ = 2 ^ (10 * j) := by rw [← zpow_natCast 2 10, ← zpow_mul]; norm_num
      _ ≤ 2 ^ (3 * b) := zpow_le_zpow_right₀ (by norm_num) hle
      _ = (2 ^ b) ^ 3 := by rw [← zpow_natCast (2 ^ b) 3, ← zpow_mul, mul_comm]; norm_num
  exact le_of_pow_le_pow_left₀ (by norm_num) (by positivity) hcube

/-- Ninety-three binary places are fewer than twenty-eight decimal ones. -/
theorem ten_zpow_neg_le {i n : ℕ} (hle : 28 * n ≤ 93 * i) :
    (10 : ℚ) ^ (-(i : ℤ)) ≤ 2 ^ (-(n : ℤ)) := by
  have hpower : (2 : ℕ) ^ n ≤ 10 ^ i := by
    have hroot : ((2 : ℕ) ^ n) ^ 93 ≤ (10 ^ i) ^ 93 := by
      calc ((2 : ℕ) ^ n) ^ 93 = (2 ^ 93) ^ n := by rw [← pow_mul, ← pow_mul, mul_comm]
        _ ≤ (10 ^ 28) ^ n := Nat.pow_le_pow_left (by norm_num) n
        _ = 10 ^ (28 * n) := by rw [← pow_mul]
        _ ≤ 10 ^ (93 * i) := Nat.pow_le_pow_right (by norm_num) hle
        _ = (10 ^ i) ^ 93 := by rw [← pow_mul, mul_comm]
    exact (Nat.pow_le_pow_iff_left (by norm_num)).mp hroot
  rw [zpow_neg, zpow_neg, zpow_natCast, zpow_natCast]
  exact inv_anti₀ (by positivity) (by exact_mod_cast hpower)

/-- A guess of the order is not off by more than two. -/
theorem ten_zpow_le {b : ℤ} (hlow : -1074 ≤ b) (hhigh : b ≤ 1023) :
    (10 : ℚ) ^ (b * 30103 / 100000 - 2) ≤ 2 ^ b := by
  rcases le_total 0 b with hb | hb
  · rcases le_total 0 (b * 30103 / 100000 - 2) with hj | hj
    · exact ten_zpow_le_of_nonneg hj (by omega)
    · exact (zpow_le_one_of_nonpos₀ (by norm_num) hj).trans (one_le_zpow₀ (by norm_num) hb)
  · obtain ⟨n, rfl⟩ : ∃ n : ℕ, b = -n := ⟨b.natAbs, by omega⟩
    obtain ⟨i, hi⟩ : ∃ i : ℕ, -(n : ℤ) * 30103 / 100000 - 2 = -i :=
      ⟨(-(n : ℤ) * 30103 / 100000 - 2).natAbs, by omega⟩
    rw [hi]
    exact ten_zpow_neg_le (by omega)

theorem binaryExponent_le (hfinite : x.isFinite = true) : x.binaryExponent ≤ 971 := by
  rw [isFinite, decide_eq_true_iff] at hfinite
  rcases x.fields_cases with ⟨-, h, -⟩ | ⟨-, h, -⟩ <;> omega

theorem ten_zpow_order_le (hfinite : x.isFinite = true) (hzero : x.isZero = false) :
    (10 : ℚ) ^ (x.decimalOrder - 1) ≤ x.significand * 2 ^ x.binaryExponent := by
  obtain ⟨hdenominator, -, -, hmid, -⟩ := interval_spec hzero
  have hpos := significand_pos hzero
  have hlog : x.significand.log2 ≤ 52 :=
    Nat.le_of_lt_succ ((Nat.log2_lt hpos.ne').mpr x.significand_lt)
  have hleast := x.le_binaryExponent
  have hmost := binaryExponent_le hfinite
  have hvalue : (2 : ℚ) ^ ((x.significand.log2 : ℤ) + x.binaryExponent) ≤ x.interval.mid := by
    rw [hmid, zpow_add₀ (by norm_num)]
    gcongr
    exact (log2_bounds hpos).1
  have hbelow (e : ℤ) (h : ¬ x.interval.below e = true) : (10 : ℚ) ^ e ≤ x.interval.mid := by
    rwa [Interval.below_iff hdenominator, not_lt] at h
  have hguess := (ten_zpow_le (by omega) (by omega)).trans hvalue
  rw [← hmid, decimalOrder]
  generalize ((x.significand.log2 : ℤ) + x.binaryExponent) * 30103 / 100000 = guess at hguess ⊢
  split
  · split
    · rw [show guess - 1 - 1 = guess - 2 by ring]
      exact hguess
    next h => exact hbelow _ h
  next h =>
    split
    · rw [add_sub_cancel_right]
      exact hbelow _ h
    next h' =>
      rw [show guess + 2 - 1 = guess + 1 by ring]
      exact hbelow _ h'

theorem exists_grid (hfinite : x.isFinite = true) (hzero : x.isZero = false) :
    ∃ d, x.interval.onGrid? (x.decimalOrder - 17) = some d := by
  obtain ⟨hdenominator, -, hlow, hmid, hhigh⟩ := interval_spec hzero
  have hpow : (0 : ℚ) < 2 ^ x.binaryExponent := by positivity
  have hgap := x.gap_pos
  refine Interval.exists_onGrid? hdenominator ?_ ?_ ?_
  · rw [hlow, hmid]
    gcongr
    linarith
  · rw [hmid, hhigh]
    gcongr
    linarith
  · have horder := ten_zpow_order_le hfinite hzero
    have hunit : (10 : ℚ) ^ (x.decimalOrder - 17) = 10 ^ (x.decimalOrder - 1) / 10 ^ 16 := by
      rw [show x.decimalOrder - 17 = x.decimalOrder - 1 - (16 : ℕ) by push_cast; ring,
        zpow_sub₀ (by norm_num), zpow_natCast]
    have hdigits : (x.significand : ℚ) / 10 ^ 16 < x.gap + 1 / 2 := by
      by_cases hhalf : x.gap = 1 / 2
      · have hlt : (x.significand : ℚ) < 2 ^ 53 := by exact_mod_cast x.significand_lt
        rw [hhalf, div_lt_iff₀ (by norm_num)]
        linarith
      · rw [significand_of_gap hhalf]
        norm_num
        linarith
    calc (10 : ℚ) ^ (x.decimalOrder - 17)
        ≤ x.significand * 2 ^ x.binaryExponent / 10 ^ 16 := by
          rw [hunit]
          gcongr
      _ = x.significand / 10 ^ 16 * 2 ^ x.binaryExponent := by ring
      _ < (x.gap + 1 / 2) * 2 ^ x.binaryExponent := by gcongr
      _ = x.interval.high - x.interval.low := by
          rw [hlow, hhigh]
          ring

/-! The shortest decimal. -/

theorem contains_shortestFrom {i : Interval} {order : ℤ} (fuel digits last : ℕ)
    (hfrom : digits ≤ last) (hto : last < digits + fuel)
    (hgrid : ∃ d, i.onGrid? (order - last) = some d) :
    i.contains (shortestFrom i order fuel digits).digits
      (shortestFrom i order fuel digits).exponent = true := by
  induction fuel generalizing digits with
  | zero => omega
  | succ fuel ih =>
      rw [shortestFrom]
      split
      next d hd => exact Interval.contains_of_onGrid? hd
      next hnone =>
        rcases Nat.lt_or_eq_of_le hfrom with hlt | rfl
        · exact ih _ hlt (by omega)
        · obtain ⟨d, hd⟩ := hgrid
          rw [hnone] at hd
          cases hd

end Number

namespace Decimal

theorem value_trimZeros (fuel : ℕ) (d : Decimal) : (d.trimZeros fuel).value = d.value := by
  induction fuel generalizing d with
  | zero => rfl
  | succ fuel ih =>
      rw [trimZeros]
      split
      next hzeros =>
        simp only [Bool.and_eq_true, decide_eq_true_eq] at hzeros
        have hdigits : d.digits = d.digits / 10 * 10 := by omega
        rw [ih, value, value]
        conv_rhs => rw [hdigits]
        push_cast
        rw [zpow_add₀ (by norm_num), zpow_one]
        ring
      next => rfl

theorem value_normalize (d : Decimal) : d.normalize.value = d.value := by
  rw [normalize]
  split
  next hzero => simp [value, hzero]
  next => exact value_trimZeros _ d

end Decimal

namespace Number

variable {x : Number}

theorem value_shortest_of_isZero (hzero : x.isZero = true) : x.shortest.value = 0 := by
  simp [shortest, hzero, Decimal.value]

/-- The shortest decimal of a number is read as the number. -/
theorem absorbs_shortest (hfinite : x.isFinite = true) (hzero : x.isZero = false) :
    x.Absorbs x.shortest.value := by
  have hcontains := contains_shortestFrom 17 1 17 (by omega) (by omega)
    (exists_grid hfinite hzero)
  rw [shortest, hzero, if_neg Bool.false_ne_true, Decimal.value_normalize,
    ← contains_interval_iff hzero]
  exact hcontains

/-! Reading a decimal. -/

theorem assemble_signbit_magnitude (x : Number) : assemble x.signbit x.magnitude = x := by
  have hlt := x.bits.toNat_lt
  have hbits : (if x.signbit then Nat.pow 2 63 else 0) + x.magnitude % Nat.pow 2 63 =
      x.bits.toNat := by
    simp only [signbit, magnitude, Nat.pow_eq, decide_eq_true_eq]
    split <;> omega
  rw [assemble, hbits, UInt64.ofNat_toNat]

theorem digitCount_bounds {n : ℕ} (hn : 0 < n) :
    (10 : ℚ) ^ ((digitCount n : ℤ) - 1) ≤ n ∧ (n : ℚ) < 10 ^ (digitCount n : ℤ) := by
  have hcount : 0 < digitCount n := List.length_pos_iff.mpr Nat.toDigits_ne_nil
  constructor
  · obtain ⟨k, hk⟩ : ∃ k, digitCount n = k + 1 := ⟨digitCount n - 1, by omega⟩
    rw [hk]
    push_cast
    rw [add_sub_cancel_right, zpow_natCast]
    rcases Nat.eq_zero_or_pos k with rfl | hpos
    · rw [pow_zero]
      exact_mod_cast hn
    · have hle : ¬ digitCount n ≤ k := by omega
      rw [digitCount, Nat.length_toDigits_le_iff (by decide) hpos, not_lt] at hle
      exact_mod_cast hle
  · have hlt := (Nat.length_toDigits_le_iff (b := 10) (by decide) hcount).mp le_rfl
    rw [zpow_natCast]
    exact_mod_cast hlt

theorem least_bound : (10 : ℚ) ^ (-330 : ℤ) < 2 ^ (-1075 : ℤ) := by
  have hpower : (2 : ℕ) ^ 1075 < 10 ^ 330 := by decide +kernel
  rw [zpow_neg, zpow_neg]
  exact inv_strictAnti₀ (by positivity) (by exact_mod_cast hpower)

theorem greatest_bound : (2 : ℚ) ^ (1024 : ℤ) < 10 ^ (309 : ℤ) := by
  have hpower : (2 : ℕ) ^ 1024 < 10 ^ 309 := by decide +kernel
  exact_mod_cast hpower

theorem Absorbs.bounds {v : ℚ} (habsorbs : x.Absorbs v) (hfinite : x.isFinite = true)
    (hzero : x.isZero = false) : (10 : ℚ) ^ (-330 : ℤ) < v ∧ v < 10 ^ (309 : ℤ) := by
  have hpow : (0 : ℚ) < 2 ^ x.binaryExponent := by positivity
  have hlow := habsorbs.low
  have hhigh := habsorbs.high
  rw [le_div_iff₀ hpow] at hlow
  rw [div_le_iff₀ hpow] at hhigh
  have hone : (1 : ℚ) ≤ x.significand := by exact_mod_cast significand_pos hzero
  have hgap := x.gap_le
  constructor
  · have hleast : (2 : ℚ) ^ (-1074 : ℤ) ≤ 2 ^ x.binaryExponent :=
      zpow_le_zpow_right₀ (by norm_num) x.le_binaryExponent
    have hhalf : (1 : ℚ) / 2 ≤ x.significand - x.gap := by linarith
    calc (10 : ℚ) ^ (-330 : ℤ) < 2 ^ (-1075 : ℤ) := least_bound
      _ = 1 / 2 * 2 ^ (-1074 : ℤ) := by
        rw [show (-1075 : ℤ) = -1 + -1074 by norm_num, zpow_add₀ (by norm_num)]
        norm_num
      _ ≤ (x.significand - x.gap) * 2 ^ x.binaryExponent := by gcongr
      _ ≤ v := hlow
  · have hlt : (x.significand : ℚ) + 1 ≤ 2 ^ 53 := by exact_mod_cast x.significand_lt
    have hmost : (2 : ℚ) ^ x.binaryExponent ≤ 2 ^ (971 : ℤ) :=
      zpow_le_zpow_right₀ (by norm_num) (binaryExponent_le hfinite)
    have hfull : (x.significand : ℚ) + 1 / 2 ≤ 2 ^ (53 : ℤ) := by
      rw [zpow_ofNat]
      linarith
    calc v ≤ (x.significand + 1 / 2) * 2 ^ x.binaryExponent := hhigh
      _ ≤ 2 ^ (53 : ℤ) * 2 ^ (971 : ℤ) := by gcongr
      _ = 2 ^ (1024 : ℤ) := by
        rw [← zpow_add₀ (by norm_num)]
        norm_num
      _ < 10 ^ (309 : ℤ) := greatest_bound

theorem ofDecimal_of_absorbs (hfinite : x.isFinite = true) (hzero : x.isZero = false)
    {d : Decimal} (habsorbs : x.Absorbs d.value) :
    ofDecimal x.signbit d.digits d.exponent = x := by
  obtain ⟨hlow, hhigh⟩ := habsorbs.bounds hfinite hzero
  have hten : (0 : ℚ) < 10 ^ d.exponent := by positivity
  have hdigits : 0 < d.digits := by
    apply Nat.pos_of_ne_zero
    intro hnone
    rw [Decimal.value, hnone, Nat.cast_zero, zero_mul] at hlow
    exact absurd hlow (not_lt.mpr (by positivity))
  obtain ⟨hfew, hmany⟩ := digitCount_bounds hdigits
  have hsmall : ¬ (digitCount d.digits : ℤ) + d.exponent < -330 := by
    intro hreach
    have hvalue : d.value < 10 ^ ((digitCount d.digits : ℤ) + d.exponent) := by
      rw [zpow_add₀ (by norm_num), Decimal.value]
      gcongr
    have hle := zpow_le_zpow_right₀ (by norm_num : (1 : ℚ) ≤ 10) hreach.le
    linarith
  have hlarge : ¬ 310 < (digitCount d.digits : ℤ) + d.exponent := by
    intro hreach
    have hvalue : (10 : ℚ) ^ ((digitCount d.digits : ℤ) - 1 + d.exponent) ≤ d.value := by
      rw [zpow_add₀ (by norm_num), Decimal.value]
      gcongr
    have hle := zpow_le_zpow_right₀ (by norm_num : (1 : ℚ) ≤ 10)
      (show 309 ≤ (digitCount d.digits : ℤ) - 1 + d.exponent by omega)
    linarith
  have hfraction {a b : ℕ} (ha : 0 < a) (hb : 0 < b) (hvalue : (a : ℚ) / b = d.value) :
      assemble x.signbit (nearestMagnitude a b) = x := by
    rw [nearestMagnitude_of_absorbs hfinite ha hb (hvalue ▸ habsorbs), assemble_signbit_magnitude]
  unfold ofDecimal
  simp only [hdigits.ne', hsmall, hlarge, decide_false, Bool.or_false, Bool.false_eq_true, if_false]
  split
  next k hexponent =>
    refine hfraction (Nat.mul_pos hdigits (Nat.pow_pos (by decide))) Nat.one_pos ?_
    simp [Decimal.value, hexponent]
  next k hexponent =>
    refine hfraction hdigits (Nat.pow_pos (by decide)) ?_
    simp [Decimal.value, hexponent, zpow_negSucc, div_eq_mul_inv]

/-- Every decimal of the value of the shortest one is read as the number. -/
theorem ofDecimal_of_value {d : Decimal} (hfinite : x.isFinite = true)
    (hvalue : d.value = x.shortest.value) : ofDecimal x.signbit d.digits d.exponent = x := by
  cases hzero : x.isZero with
  | false => exact ofDecimal_of_absorbs hfinite hzero (hvalue ▸ absorbs_shortest hfinite hzero)
  | true =>
      have hdigits : d.digits = 0 := by
        rw [value_shortest_of_isZero hzero, Decimal.value] at hvalue
        have hten : (10 : ℚ) ^ d.exponent ≠ 0 := by positivity
        exact_mod_cast (mul_eq_zero.mp hvalue).resolve_right hten
      have hmagnitude : x.magnitude = 0 := of_decide_eq_true hzero
      have hassemble := x.assemble_signbit_magnitude
      rw [hmagnitude] at hassemble
      rw [hdigits]
      exact hassemble

end Number

end ScriptTree
