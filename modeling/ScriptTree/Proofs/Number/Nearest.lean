import ScriptTree.Proofs.Number.Unpacked

/-!
The number nearest to a fraction. A fraction is rounded to the grid on which numbers of its size
stand, and is read as a number from half a place below it to half a place above it, or from a
quarter of a place below it where the spacing of numbers halves.
-/

namespace ScriptTree.Number

/-! Rounding to a natural number. -/

theorem roundHalfEven_eq {a b m : ℕ} (hb : 0 < b) (hlow : 2 * m * b ≤ 2 * a + b)
    (hhigh : 2 * a ≤ 2 * m * b + b)
    (heven : 2 * m * b = 2 * a + b ∨ 2 * a = 2 * m * b + b → m % 2 = 0) :
    roundHalfEven a b = m := by
  have hdiv := Nat.div_add_mod a b
  have hmod := Nat.mod_lt a hb
  rw [roundHalfEven]
  generalize a / b = q at hdiv ⊢
  generalize a % b = r at hdiv hmod ⊢
  subst hdiv
  have hcases : m = q ∨ m = q + 1 := by
    have hle : m < q + 2 := by nlinarith
    have hge : q < m + 1 := by nlinarith
    omega
  rcases hcases with rfl | rfl
  · have hcomm : 2 * m * b = 2 * (b * m) := by ring
    split
    · rfl
    · split
      · have hpar : m % 2 = 0 := heven (.inr (by omega))
        omega
      · omega
  · have hcomm' : 2 * (q + 1) * b = 2 * (b * q) + 2 * b := by ring
    split
    · omega
    · split
      · have hpar : (q + 1) % 2 = 0 := heven (.inl (by omega))
        omega
      · rfl

/-- Rounding a fraction, as a statement about the fraction. -/
theorem roundHalfEven_eq_of_rat {a b m : ℕ} (hb : 0 < b) (hlow : (m : ℚ) - 1 / 2 ≤ a / b)
    (hhigh : (a : ℚ) / b ≤ m + 1 / 2)
    (heven : (a : ℚ) / b = m - 1 / 2 ∨ (a : ℚ) / b = m + 1 / 2 → m % 2 = 0) :
    roundHalfEven a b = m := by
  have hpos : (0 : ℚ) < b := by exact_mod_cast hb
  rw [le_div_iff₀ hpos] at hlow
  rw [div_le_iff₀ hpos] at hhigh
  rw [div_eq_iff hpos.ne', div_eq_iff hpos.ne'] at heven
  refine roundHalfEven_eq hb ?_ ?_ fun htie => heven ?_
  · have h : (2 * m * b : ℚ) ≤ 2 * a + b := by linarith
    exact_mod_cast h
  · have h : (2 * a : ℚ) ≤ 2 * m * b + b := by linarith
    exact_mod_cast h
  · rcases htie with htie | htie
    · have h : (2 * m * b : ℚ) = 2 * a + b := by exact_mod_cast htie
      exact .inl (by linarith)
    · have h : (2 * a : ℚ) = 2 * m * b + b := by exact_mod_cast htie
      exact .inr (by linarith)

/-! The grid of a fraction. -/

theorem scaleDown_spec {a b : ℕ} (hb : 0 < b) (q : ℤ) :
    0 < (scaleDown a b q).2 ∧
      ((scaleDown a b q).1 : ℚ) / (scaleDown a b q).2 = a / b / 2 ^ q := by
  cases q with
  | ofNat k =>
      refine ⟨Nat.mul_pos hb (Nat.pow_pos (by decide)), ?_⟩
      simp [scaleDown, div_div]
  | negSucc k =>
      refine ⟨hb, ?_⟩
      simp only [scaleDown, Nat.pow_eq, Nat.cast_mul, Nat.cast_pow, Nat.cast_ofNat, zpow_negSucc,
        div_inv_eq_mul]
      ring

/-- The grid on which numbers of the size of a fraction stand. -/
structure OnGrid (v : ℚ) (q : ℤ) : Prop where
  least : -1074 ≤ q
  high : v < 2 ^ (q + 53)
  low : q = -1074 ∨ 2 ^ (q + 52) ≤ v

theorem OnGrid.unique {v : ℚ} {q r : ℤ} (hq : OnGrid v q) (hr : OnGrid v r) : q = r := by
  have hle {q r : ℤ} (hq : OnGrid v q) (hr : OnGrid v r) : r ≤ q := by
    rcases hr.low with rfl | hlow
    · exact hq.least
    · have hlt : r + 52 < q + 53 :=
        (zpow_lt_zpow_iff_right₀ (by norm_num : (1 : ℚ) < 2)).mp (hlow.trans_lt hq.high)
      omega
  exact le_antisymm (hle hr hq) (hle hq hr)

theorem log2_bounds {n : ℕ} (hn : 0 < n) :
    (2 : ℚ) ^ (n.log2 : ℤ) ≤ n ∧ (n : ℚ) < 2 ^ ((n.log2 : ℤ) + 1) := by
  constructor
  · rw [zpow_natCast]
    exact_mod_cast Nat.log2_self_le hn.ne'
  · have hlt : n < 2 ^ (n.log2 + 1) := Nat.lt_log2_self
    exact_mod_cast hlt

/-- The difference of the logarithms tells the size of a fraction up to two binary places. -/
theorem div_bounds {a b : ℕ} (ha : 0 < a) (hb : 0 < b) :
    (2 : ℚ) ^ ((a.log2 : ℤ) - b.log2 - 1) ≤ a / b ∧
      (a : ℚ) / b < 2 ^ ((a.log2 : ℤ) - b.log2 + 1) := by
  have hpos : (0 : ℚ) < b := by exact_mod_cast hb
  have htwo : (2 : ℚ) ≠ 0 := by norm_num
  obtain ⟨halow, hahigh⟩ := log2_bounds ha
  obtain ⟨hblow, hbhigh⟩ := log2_bounds hb
  rw [le_div_iff₀ hpos, div_lt_iff₀ hpos]
  constructor
  · calc (2 : ℚ) ^ ((a.log2 : ℤ) - b.log2 - 1) * b
        ≤ 2 ^ ((a.log2 : ℤ) - b.log2 - 1) * 2 ^ ((b.log2 : ℤ) + 1) := by gcongr
      _ = 2 ^ (a.log2 : ℤ) := by
        rw [← zpow_add₀ htwo]
        congr 1
        ring
      _ ≤ a := halow
  · calc (a : ℚ) < 2 ^ ((a.log2 : ℤ) + 1) := hahigh
      _ = 2 ^ ((a.log2 : ℤ) - b.log2 + 1) * 2 ^ (b.log2 : ℤ) := by
        rw [← zpow_add₀ htwo]
        congr 1
        ring
      _ ≤ 2 ^ ((a.log2 : ℤ) - b.log2 + 1) * b := by gcongr

theorem onGrid_gridExponent {a b : ℕ} (ha : 0 < a) (hb : 0 < b) :
    OnGrid ((a : ℚ) / b) (gridExponent a b) := by
  obtain ⟨hlow, hhigh⟩ := div_bounds ha hb
  have hone : (1 : ℚ) ≤ 2 := by norm_num
  rw [gridExponent]
  set guess : ℤ := max ((a.log2 : ℤ) - b.log2 - 52) (-1074) with hguess
  obtain ⟨hscaled, hvalue⟩ := scaleDown_spec hb guess (a := a)
  generalize scaleDown a b guess = scaled at hscaled hvalue ⊢
  have hpow : (0 : ℚ) < 2 ^ guess := by positivity
  have hroom : (a : ℚ) / b < 2 ^ (guess + 53) :=
    hhigh.trans_le (zpow_le_zpow_right₀ hone (by omega))
  have hscale (k : ℕ) : k ≤ scaled.1 / scaled.2 ↔ (2 : ℚ) ^ guess * k ≤ a / b := by
    rw [Nat.le_div_iff_mul_le hscaled, ← le_div_iff₀' hpow, ← hvalue,
      le_div_iff₀ (by exact_mod_cast hscaled)]
    exact_mod_cast Iff.rfl
  have hplaces (k : ℕ) : (2 : ℚ) ^ guess * ((2 ^ k : ℕ) : ℚ) = 2 ^ (guess + k) := by
    rw [zpow_add₀ (by norm_num : (2 : ℚ) ≠ 0), zpow_natCast]
    push_cast
    rfl
  have hmost : ¬ Nat.pow 2 53 ≤ scaled.1 / scaled.2 := by
    rw [Nat.pow_eq, hscale, hplaces, not_le]
    exact hroom
  simp only [if_neg hmost]
  split
  next hsmall =>
    rw [Nat.pow_eq, ← not_le, hscale, hplaces, not_le] at hsmall
    refine ⟨le_max_right _ _, ?_, ?_⟩
    · exact hsmall.trans_le (zpow_le_zpow_right₀ hone (by push_cast; omega))
    · rcases le_or_gt (guess - 1) (-1074) with hle | hlt
      · exact .inl (max_eq_right hle)
      · rw [max_eq_left (le_of_lt hlt)]
        have hexact : guess - 1 + 52 = (a.log2 : ℤ) - b.log2 - 1 := by omega
        rw [hexact]
        exact .inr hlow
  next hlarge =>
    rw [Nat.pow_eq, not_lt, hscale, hplaces] at hlarge
    exact ⟨le_max_right _ _, hroom, .inr hlarge⟩

/-! The fractions that are read as a number. -/

/-- How far below a number, in its last binary place, fractions are read as the number. -/
def gap (x : Number) : ℚ := if x.fraction = 0 && 1 < x.exponentField then 1 / 4 else 1 / 2

/-- A fraction is read as a positive number. -/
structure Absorbs (x : Number) (v : ℚ) : Prop where
  low : x.significand - x.gap ≤ v / 2 ^ x.binaryExponent
  high : v / 2 ^ x.binaryExponent ≤ x.significand + 1 / 2
  tie : v / 2 ^ x.binaryExponent = x.significand - x.gap ∨
    v / 2 ^ x.binaryExponent = x.significand + 1 / 2 → x.significand % 2 = 0

variable {x : Number}

theorem fields_cases (x : Number) :
    x.exponentField = 0 ∧ x.binaryExponent = -1074 ∧ x.significand = x.fraction ∨
      0 < x.exponentField ∧ x.binaryExponent = (x.exponentField : ℤ) - 1075 ∧
        x.significand = 2 ^ 52 + x.fraction := by
  rcases Nat.eq_zero_or_pos x.exponentField with hzero | hpos
  · exact .inl ⟨hzero, if_pos hzero, if_pos hzero⟩
  · exact .inr ⟨hpos, if_neg hpos.ne', if_neg hpos.ne'⟩

theorem significand_lt (x : Number) : x.significand < 2 ^ 53 := by
  have hfraction := x.fraction_lt
  rcases x.fields_cases with ⟨-, -, h⟩ | ⟨-, -, h⟩ <;> omega

theorem le_binaryExponent (x : Number) : -1074 ≤ x.binaryExponent := by
  rcases x.fields_cases with ⟨-, h, -⟩ | ⟨hpos, h, -⟩ <;> omega

theorem le_significand (hexponent : -1074 < x.binaryExponent) : 2 ^ 52 ≤ x.significand := by
  rcases x.fields_cases with ⟨-, h, -⟩ | ⟨-, -, h⟩ <;> omega

theorem magnitude_eq (x : Number) :
    x.magnitude = (x.binaryExponent + 1074).toNat * 2 ^ 52 + x.significand := by
  have hparts : x.magnitude = x.exponentField * 2 ^ 52 + x.fraction := by
    rw [exponentField, fraction, Nat.pow_eq, Nat.div_add_mod']
  rw [hparts]
  rcases x.fields_cases with ⟨hfield, hexponent, hsignificand⟩ | ⟨hfield, hexponent, hsignificand⟩
  · rw [hfield, hexponent, hsignificand]
    rfl
  · rw [hexponent, hsignificand]
    have htoNat : ((x.exponentField : ℤ) - 1075 + 1074).toNat = x.exponentField - 1 := by omega
    rw [htoNat]
    omega

theorem magnitude_lt (hfinite : x.isFinite = true) : x.magnitude < 2047 * 2 ^ 52 := by
  rw [isFinite, decide_eq_true_iff, exponentField, Nat.pow_eq] at hfinite
  omega

theorem gap_pos (x : Number) : 0 < x.gap := by
  rw [gap]
  split <;> norm_num

theorem gap_le (x : Number) : x.gap ≤ 1 / 2 := by
  rw [gap]
  split <;> norm_num

/-- The spacing halves just below a power of two. -/
theorem gap_of_significand (hexponent : -1074 < x.binaryExponent)
    (hsignificand : x.significand = 2 ^ 52) : x.gap = 1 / 4 := by
  rw [gap, if_pos]
  rcases x.fields_cases with ⟨-, h, -⟩ | ⟨-, h, h'⟩
  · omega
  · simp only [Bool.and_eq_true, decide_eq_true_eq]
    omega

theorem significand_of_gap (hgap : x.gap ≠ 1 / 2) : x.significand = 2 ^ 52 := by
  rw [gap] at hgap
  split at hgap
  next hedge =>
    simp only [Bool.and_eq_true, decide_eq_true_eq] at hedge
    rcases x.fields_cases with ⟨h, -, -⟩ | ⟨-, -, h⟩ <;> omega
  next => exact absurd rfl hgap

/-- The grid of a fraction is that of the number that absorbs it, or the next finer one, just
below a power of two. -/
theorem OnGrid.eq_or_of_absorbs {v : ℚ} {q : ℤ} (hgrid : OnGrid v q) (habsorbs : x.Absorbs v) :
    q = x.binaryExponent ∨ q = x.binaryExponent - 1 ∧ x.significand = 2 ^ 52 ∧
      v / 2 ^ x.binaryExponent < 2 ^ 52 ∧ x.gap = 1 / 4 := by
  have hleast := x.le_binaryExponent
  have hsmall : (x.significand : ℚ) + 1 ≤ 2 ^ 53 := by exact_mod_cast x.significand_lt
  have hgap := x.gap_le
  have hlow := habsorbs.low
  have hhigh := habsorbs.high
  have hscale (k : ℤ) : (2 : ℚ) ^ (x.binaryExponent + k) = 2 ^ k * 2 ^ x.binaryExponent := by
    rw [zpow_add₀ (by norm_num), mul_comm]
  have hpow : (0 : ℚ) < 2 ^ x.binaryExponent := by positivity
  have hone : (1 : ℚ) ≤ 2 := by norm_num
  rcases lt_trichotomy q x.binaryExponent with hlt | heq | hgt
  · have hbelow : v / 2 ^ x.binaryExponent < 2 ^ 52 := by
      rw [div_lt_iff₀ hpow]
      have hv := hgrid.high.trans_le
        (zpow_le_zpow_right₀ hone (show q + 53 ≤ x.binaryExponent + 52 by omega))
      rwa [hscale] at hv
    have hexponent : -1074 < x.binaryExponent := hgrid.least.trans_lt hlt
    have hsignificand : x.significand = 2 ^ 52 := by
      have hle := le_significand hexponent
      have hge : (x.significand : ℚ) < 2 ^ 52 + 1 := by linarith
      have hge' : x.significand < 2 ^ 52 + 1 := by exact_mod_cast hge
      omega
    have hquarter := gap_of_significand hexponent hsignificand
    refine .inr ⟨hgrid.unique ⟨by omega, ?_, .inr ?_⟩, hsignificand, hbelow, hquarter⟩
    · rw [div_lt_iff₀ hpow] at hbelow
      rw [show x.binaryExponent - 1 + 53 = x.binaryExponent + 52 by ring, hscale]
      exact hbelow
    · rw [hsignificand, hquarter] at hlow
      rw [show x.binaryExponent - 1 + 52 = x.binaryExponent + 51 by ring, hscale,
        ← le_div_iff₀ hpow]
      refine le_trans ?_ hlow
      norm_num
  · exact .inl heq
  · rcases hgrid.low with hlow' | hlow'
    · omega
    · have hv := (zpow_le_zpow_right₀ hone
        (show x.binaryExponent + 53 ≤ q + 52 by omega)).trans hlow'
      rw [hscale, ← le_div_iff₀ hpow] at hv
      have hv' : (2 : ℚ) ^ 53 ≤ v / 2 ^ x.binaryExponent := hv
      linarith

theorem nearestMagnitude_of_absorbs {a b : ℕ} (hfinite : x.isFinite = true) (ha : 0 < a)
    (hb : 0 < b) (habsorbs : x.Absorbs (a / b)) : nearestMagnitude a b = x.magnitude := by
  have hgrid := onGrid_gridExponent ha hb
  have hmagnitude := x.magnitude_eq
  have hbound := magnitude_lt hfinite
  rw [nearestMagnitude]
  obtain ⟨hscaled, hvalue⟩ := scaleDown_spec hb (gridExponent a b) (a := a)
  generalize scaleDown a b (gridExponent a b) = scaled at hscaled hvalue ⊢
  have hlow := habsorbs.low
  have hhigh := habsorbs.high
  rcases hgrid.eq_or_of_absorbs habsorbs with heq | ⟨heq, hsignificand, hbelow, hgap⟩
  · rw [heq] at hvalue ⊢
    have hround : roundHalfEven scaled.1 scaled.2 = x.significand := by
      have hgap := x.gap_le
      refine roundHalfEven_eq_of_rat hscaled ?_ ?_ fun htie => habsorbs.tie ?_
      · rw [hvalue]
        linarith
      · rwa [hvalue]
      · rw [hvalue] at htie
        exact htie.imp_left fun htie => by linarith
    simp only [hround, Nat.pow_eq]
    omega
  · have hdouble : ((scaled.1 : ℚ) / scaled.2) = 2 * (a / b / 2 ^ x.binaryExponent) := by
      rw [hvalue, heq, zpow_sub₀ (by norm_num), zpow_one]
      field_simp
    have hleast := hgrid.least
    have hround : roundHalfEven scaled.1 scaled.2 = 2 ^ 53 := by
      rw [hsignificand, hgap] at hlow
      push_cast at hlow
      refine roundHalfEven_eq_of_rat hscaled ?_ ?_ fun _ => by norm_num
      · rw [hdouble]
        push_cast
        linarith
      · rw [hdouble]
        push_cast
        linarith
    rw [heq] at hleast
    simp only [hround, Nat.pow_eq, heq]
    omega

end ScriptTree.Number
