import ScriptTree.Proofs.Number.Shortest

/-!
The order of magnitudes is the order of absolute values, and of the shortest decimals: the
decimals that are read as one number all stand below those of a larger number.
-/

namespace ScriptTree.Number

variable {x y : Number}

/-- The absolute value of a finite number. -/
def absValue (x : Number) : ℚ := x.significand * 2 ^ x.binaryExponent

theorem binaryExponent_le_of_magnitude_le (hle : x.magnitude ≤ y.magnitude) :
    x.binaryExponent ≤ y.binaryExponent := by
  by_contra hlt
  have hleast := y.le_binaryExponent
  have hnormal := le_significand (x := x) (by omega)
  have hsmall := y.significand_lt
  rw [x.magnitude_eq, y.magnitude_eq] at hle
  omega

/-- What is read as a number is not above what is read as a larger one. -/
theorem high_le_low (hlt : x.magnitude < y.magnitude) :
    ((x.significand : ℚ) + 1 / 2) * 2 ^ x.binaryExponent ≤
      (y.significand - y.gap) * 2 ^ y.binaryExponent := by
  have hgap := y.gap_le
  have hpow : (0 : ℚ) < 2 ^ x.binaryExponent := by positivity
  rcases (binaryExponent_le_of_magnitude_le hlt.le).eq_or_lt with heq | hexponent
  · rw [x.magnitude_eq, y.magnitude_eq, heq] at hlt
    have hnext : (x.significand : ℚ) + 1 ≤ y.significand := by exact_mod_cast (by omega)
    rw [heq]
    gcongr
    linarith
  · have hleast := x.le_binaryExponent
    have hnormal := le_significand (x := y) (by omega)
    have hsmall : (x.significand : ℚ) + 1 ≤ 2 ^ 53 := by exact_mod_cast x.significand_lt
    -- at least one binary place lies between the two
    have hdouble : (2 : ℚ) * 2 ^ x.binaryExponent ≤ 2 ^ y.binaryExponent := by
      rw [← zpow_one_add₀ (by norm_num)]
      exact zpow_le_zpow_right₀ (by norm_num) (by omega)
    have hlow : (2 : ℚ) ^ 52 - 1 / 4 ≤ y.significand - y.gap := by
      rcases hnormal.eq_or_lt with hedge | habove
      · rw [gap_of_significand (by omega) hedge.symm, ← hedge]
        norm_num
      · have hnext : (2 : ℚ) ^ 52 + 1 ≤ y.significand := by exact_mod_cast habove
        linarith
    calc ((x.significand : ℚ) + 1 / 2) * 2 ^ x.binaryExponent
        ≤ (2 ^ 52 - 1 / 4) * (2 * 2 ^ x.binaryExponent) := by nlinarith
      _ ≤ (y.significand - y.gap) * 2 ^ y.binaryExponent := by
          gcongr

theorem absValue_lt_of_magnitude_lt (hlt : x.magnitude < y.magnitude) :
    x.absValue < y.absValue := by
  have hbetween := high_le_low hlt
  have hgap := y.gap_pos
  calc x.absValue < (x.significand + 1 / 2) * 2 ^ x.binaryExponent := by
        rw [absValue]
        gcongr
        linarith
    _ ≤ (y.significand - y.gap) * 2 ^ y.binaryExponent := hbetween
    _ < y.absValue := by
        rw [absValue]
        gcongr
        linarith

theorem magnitude_assemble (negative : Bool) (m : ℕ) :
    (assemble negative m).magnitude = m % 2 ^ 63 := by
  have hmod : m % 2 ^ 63 < 2 ^ 63 := Nat.mod_lt _ (by decide)
  rw [assemble, magnitude]
  simp only [UInt64.toNat_ofNat', Nat.pow_eq]
  cases negative <;> simp only [Bool.false_eq_true, if_false, if_true] <;> omega

theorem fields_of_magnitude_eq (heq : x.magnitude = y.magnitude) :
    x.exponentField = y.exponentField ∧ x.fraction = y.fraction := by
  simp only [exponentField, fraction, heq, and_self]

theorem absValue_le_iff : x.absValue ≤ y.absValue ↔ x.magnitude ≤ y.magnitude := by
  refine ⟨fun hle => not_lt.mp fun hlt => hle.not_gt (absValue_lt_of_magnitude_lt hlt),
    fun hle => ?_⟩
  rcases hle.eq_or_lt with heq | hlt
  · obtain ⟨hfield, hfraction⟩ := fields_of_magnitude_eq heq
    simp only [absValue, significand, binaryExponent, hfield, hfraction, le_refl]
  · exact (absValue_lt_of_magnitude_lt hlt).le

theorem absValue_eq_zero_iff : x.absValue = 0 ↔ x.isZero = true := by
  have hpow : (2 : ℚ) ^ x.binaryExponent ≠ 0 := by positivity
  rw [absValue, mul_eq_zero, or_iff_left hpow, Nat.cast_eq_zero]
  constructor
  · intro hnone
    by_contra hzero
    exact (significand_pos (by simpa using hzero)).ne' hnone
  · intro hzero
    have hmagnitude : x.magnitude = 0 := of_decide_eq_true hzero
    rw [x.magnitude_eq] at hmagnitude
    omega

/-! Shortest decimals. -/

theorem shortest_of_magnitude_eq (heq : x.magnitude = y.magnitude) : x.shortest = y.shortest := by
  obtain ⟨hfield, hfraction⟩ := fields_of_magnitude_eq heq
  have hsignificand : x.significand = y.significand := by
    rw [significand, significand, hfield, hfraction]
  have hexponent : x.binaryExponent = y.binaryExponent := by
    rw [binaryExponent, binaryExponent, hfield]
  have hinterval : x.interval = y.interval := by
    rw [interval, interval, hsignificand, hexponent, hfield, hfraction]
  have horder : x.decimalOrder = y.decimalOrder := by
    rw [decimalOrder, decimalOrder, hinterval, hsignificand, hexponent]
  rw [shortest, shortest, isZero, isZero, hinterval, horder, heq]

/-- The sign has no part in reading a decimal. -/
theorem magnitude_ofDecimal (negative negative' : Bool) (d : Decimal) :
    (ofDecimal negative d.digits d.exponent).magnitude =
      (ofDecimal negative' d.digits d.exponent).magnitude := by
  have hassemble (m : ℕ) : (assemble negative m).magnitude = (assemble negative' m).magnitude := by
    rw [magnitude_assemble, magnitude_assemble]
  simp only [ofDecimal]
  split
  · exact hassemble _
  · split
    · exact hassemble _
    · split
      · exact hassemble _
      · exact hassemble _

/-- A larger number has a larger shortest decimal. -/
theorem value_shortest_lt (hx : x.isFinite = true) (hy : y.isFinite = true)
    (hlt : x.magnitude < y.magnitude) : x.shortest.value < y.shortest.value := by
  have hyzero : y.isZero = false := decide_eq_false (by omega)
  have hyabsorbs := absorbs_shortest hy hyzero
  cases hxzero : x.isZero with
  | true =>
      rw [value_shortest_of_isZero hxzero]
      exact lt_trans (by positivity) (hyabsorbs.bounds hy hyzero).1
  | false =>
      have hhigh := (absorbs_shortest hx hxzero).high
      have hlow := hyabsorbs.low
      rw [div_le_iff₀ (by positivity)] at hhigh
      rw [le_div_iff₀ (by positivity)] at hlow
      refine lt_of_le_of_ne (hhigh.trans ((high_le_low hlt).trans hlow)) fun heq => ?_
      -- one decimal is not read as two magnitudes
      have hx' := ofDecimal_of_value hx heq.symm
      have hy' := ofDecimal_of_value hy (d := y.shortest) rfl
      have hsame := magnitude_ofDecimal x.signbit y.signbit y.shortest
      rw [hx', hy'] at hsame
      exact hlt.ne hsame

theorem value_shortest_le_iff (hx : x.isFinite = true) (hy : y.isFinite = true) :
    x.shortest.value ≤ y.shortest.value ↔ x.magnitude ≤ y.magnitude := by
  refine ⟨fun hle => not_lt.mp fun hlt => hle.not_gt (value_shortest_lt hy hx hlt), fun hle => ?_⟩
  rcases hle.eq_or_lt with heq | hlt
  · rw [shortest_of_magnitude_eq heq]
  · exact (value_shortest_lt hx hy hlt).le

theorem value_shortest_eq_zero_iff (hfinite : x.isFinite = true) :
    x.shortest.value = 0 ↔ x.isZero = true := by
  refine ⟨fun hvalue => ?_, value_shortest_of_isZero⟩
  cases hzero : x.isZero with
  | true => rfl
  | false =>
      have hpos := ((absorbs_shortest hfinite hzero).bounds hfinite hzero).1
      rw [hvalue] at hpos
      exact absurd hpos (not_lt.mpr (by positivity))

end ScriptTree.Number
