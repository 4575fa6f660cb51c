import ScriptTree.Number
import Mathlib

/-!
Numbers taken apart into a sign, a mantissa and an exponent, as arithmetic sees them.
Two numbers have the same parts exactly if they are the same number, all `NaN` being one.
-/

namespace ScriptTree.Number

open Float.Model (Format UnpackedFloat)
open Float.Model.UnpackedFloat

def unpacked (x : Number) : UnpackedFloat := unpack .binary64 x.bits.toBitVec

def sign (x : Number) : Sign := if x.signbit then .negative else .positive

def negativeZero : Number := assemble true 0

/-- The same number; all `NaN` are one number and the two zeros are not. -/
def Same (x y : Number) : Prop := x = y ∨ (x.isNaN = true ∧ y.isNaN = true)

/-! The fields of the bits, read as bit vectors and as numbers. -/

theorem toNat_unpackMantissa (x : Number) :
    (@unpackMantissa .binary64 x.bits.toBitVec).toNat = x.fraction := by
  simp [unpackMantissa, fraction, magnitude]

theorem toNat_unpackExponent (x : Number) :
    (@unpackExponent .binary64 x.bits.toBitVec).toNat = x.exponentField := by
  simp only [unpackExponent, BitVec.toNat_cast, BitVec.extractLsb_toNat, exponentField,
    magnitude, Nat.shiftRight_eq_div_pow]
  change x.bits.toNat / 2 ^ 52 % 2 ^ 11 = x.bits.toNat % 2 ^ 63 / 2 ^ 52
  omega

theorem ofBitVec_unpackSign (x : Number) :
    Sign.ofBitVec (@unpackSign .binary64 x.bits.toBitVec) = x.sign := by
  have htoNat : (@unpackSign .binary64 x.bits.toBitVec).toNat =
      x.bits.toNat / 2 ^ 63 % 2 := by
    simp [unpackSign, Nat.shiftRight_eq_div_pow]
  have hlt := x.bits.toNat_lt
  have hbit : (@unpackSign .binary64 x.bits.toBitVec) = 0#1 ↔ x.signbit = false := by
    rw [← BitVec.toNat_inj, htoNat, signbit, decide_eq_false_iff_not]
    change x.bits.toNat / 2 ^ 63 % 2 = 0 ↔ ¬ 2 ^ 63 ≤ x.bits.toNat
    omega
  simp only [Sign.ofBitVec, sign, hbit]
  cases x.signbit <;> rfl

theorem bits_toNat_eq (x : Number) :
    x.bits.toNat = (if x.signbit then 2 ^ 63 else 0) + x.exponentField * 2 ^ 52 +
      x.fraction := by
  have hlt := x.bits.toNat_lt
  by_cases hsign : x.signbit = true
  · have hle : 2 ^ 63 ≤ x.bits.toNat := of_decide_eq_true hsign
    simp only [hsign, if_true, exponentField, fraction, magnitude, Nat.pow_eq]
    omega
  · have hle : ¬ 2 ^ 63 ≤ x.bits.toNat := fun h => hsign (decide_eq_true h)
    simp only [hsign, exponentField, fraction, magnitude, Nat.pow_eq]
    simp only [Bool.false_eq_true, if_false]
    omega

theorem fraction_lt (x : Number) : x.fraction < 2 ^ 52 := Nat.mod_lt _ (by decide)

theorem exponentField_lt (x : Number) : x.exponentField < 2 ^ 11 := by
  simp only [exponentField, magnitude, Nat.pow_eq]
  omega

theorem unpackExponent_eq_ones_iff (x : Number) :
    @unpackExponent .binary64 x.bits.toBitVec = -1#_ ↔ x.exponentField = 2047 := by
  rw [← BitVec.toNat_inj, toNat_unpackExponent]
  rfl

theorem unpackExponent_eq_zero_iff (x : Number) :
    @unpackExponent .binary64 x.bits.toBitVec = 0#_ ↔ x.exponentField = 0 := by
  rw [← BitVec.toNat_inj, toNat_unpackExponent]
  rfl

theorem unpackMantissa_eq_zero_iff (x : Number) :
    @unpackMantissa .binary64 x.bits.toBitVec = 0#_ ↔ x.fraction = 0 := by
  rw [← BitVec.toNat_inj, toNat_unpackMantissa]
  rfl

theorem isZero_iff (x : Number) :
    x.isZero = true ↔ x.exponentField = 0 ∧ x.fraction = 0 := by
  simp only [isZero, exponentField, fraction, Nat.pow_eq, decide_eq_true_iff]
  omega

/-! What the parts of each kind of number are. -/

theorem unpacked_of_isNaN {x : Number} (hnan : x.isNaN = true) :
    x.unpacked = .notANumber := by
  simp only [isNaN, Bool.and_eq_true, decide_eq_true_iff] at hnan
  unfold unpacked unpack
  rw [if_pos ((unpackExponent_eq_ones_iff x).mpr hnan.1),
    if_neg (mt (unpackMantissa_eq_zero_iff x).mp hnan.2)]

theorem unpacked_of_isInfinite {x : Number} (hinf : x.isInfinite = true) :
    x.unpacked = .infinity x.sign := by
  simp only [isInfinite, Bool.and_eq_true, decide_eq_true_iff] at hinf
  unfold unpacked unpack
  rw [if_pos ((unpackExponent_eq_ones_iff x).mpr hinf.1),
    if_pos ((unpackMantissa_eq_zero_iff x).mpr hinf.2), ofBitVec_unpackSign]

theorem unpacked_of_isZero {x : Number} (hzero : x.isZero = true) :
    x.unpacked = .zero x.sign := by
  rw [isZero_iff] at hzero
  have hones : ¬ x.exponentField = 2047 := by omega
  unfold unpacked unpack
  rw [if_neg (mt (unpackExponent_eq_ones_iff x).mp hones),
    if_pos ((unpackExponent_eq_zero_iff x).mpr hzero.1),
    dif_pos ((unpackMantissa_eq_zero_iff x).mpr hzero.2), ofBitVec_unpackSign]

theorem fields_of_not_isZero {x : Number} (hzero : x.isZero = false) :
    x.exponentField ≠ 0 ∨ x.fraction ≠ 0 := by
  have hfields : ¬ (x.exponentField = 0 ∧ x.fraction = 0) := by
    rw [← isZero_iff, hzero]
    exact Bool.false_ne_true
  omega

theorem significand_pos {x : Number} (hzero : x.isZero = false) : 0 < x.significand := by
  have hfields := fields_of_not_isZero hzero
  simp only [significand, Nat.pow_eq]
  split <;> omega

theorem toNat_one_append (x : Number) :
    (1#1 ++ @unpackMantissa .binary64 x.bits.toBitVec).toNat = 2 ^ 52 + x.fraction := by
  rw [BitVec.toNat_append, ← Nat.shiftLeft_add_eq_or_of_lt (BitVec.isLt _),
    toNat_unpackMantissa]
  rfl

theorem unpacked_of_isFinite {x : Number} (hfinite : x.isFinite = true)
    (hzero : x.isZero = false) :
    x.unpacked =
      .finite x.sign x.significand x.binaryExponent (significand_pos hzero) := by
  have hones : ¬ x.exponentField = 2047 :=
    Nat.ne_of_lt (of_decide_eq_true hfinite)
  unfold unpacked unpack
  rw [if_neg (mt (unpackExponent_eq_ones_iff x).mp hones)]
  by_cases hsub : x.exponentField = 0
  · have hfraction : ¬ x.fraction = 0 := by
      have hfields := fields_of_not_isZero hzero
      omega
    rw [if_pos ((unpackExponent_eq_zero_iff x).mpr hsub),
      dif_neg (mt (unpackMantissa_eq_zero_iff x).mp hfraction)]
    simp only [ofBitVec_unpackSign, toNat_unpackMantissa, toNat_unpackExponent,
      significand, binaryExponent, hsub]
    rfl
  · rw [if_neg (mt (unpackExponent_eq_zero_iff x).mp hsub)]
    simp only [ofBitVec_unpackSign, toNat_unpackExponent, significand, binaryExponent,
      if_neg hsub]
    congr 1
    exact toNat_one_append x

theorem kind_cases (x : Number) :
    x.isNaN = true ∨ x.isInfinite = true ∨ x.isZero = true ∨
      (x.isFinite = true ∧ x.isZero = false) := by
  have hlt := x.exponentField_lt
  simp only [isNaN, isInfinite, isFinite, Bool.and_eq_true, decide_eq_true_iff]
  cases x.isZero <;> simp only [Bool.false_eq_true, false_or, and_true, true_or, or_true]
  omega

/-! Packing gives back the bits that were taken apart. -/

theorem toNat_append_eq {v w : Nat} (high : BitVec v) (low : BitVec w) :
    (high ++ low).toNat = high.toNat * 2 ^ w + low.toNat := by
  rw [BitVec.toNat_append, ← Nat.shiftLeft_add_eq_or_of_lt low.isLt, Nat.shiftLeft_eq]

theorem toNat_packComponents (s : Sign) (e : BitVec 11) (m : BitVec 52) :
    (packComponents .binary64 s e m).toNat =
      s.toBitVec.toNat * 2 ^ 63 + e.toNat * 2 ^ 52 + m.toNat := by
  change (s.toBitVec ++ e ++ m).toNat = _
  rw [toNat_append_eq (s.toBitVec ++ e) m, toNat_append_eq s.toBitVec e]
  ring

theorem toNat_toBitVec_sign (x : Number) :
    x.sign.toBitVec.toNat * 2 ^ 63 = if x.signbit then 2 ^ 63 else 0 := by
  unfold sign
  cases x.signbit <;> rfl

theorem toNat_ofNat_significand (x : Number) :
    (BitVec.ofNat 52 x.significand).toNat = x.fraction := by
  have hfraction := x.fraction_lt
  simp only [BitVec.toNat_ofNat, significand, Nat.pow_eq]
  split <;> omega

/-- A mantissa of 53 bits is one whose first bit is set. -/
theorem log2_significand_iff (x : Number) :
    x.significand.log2 + 1 = Format.binary64.mantissaBits ↔ x.exponentField ≠ 0 := by
  have hfraction := x.fraction_lt
  change x.significand.log2 + 1 = 53 ↔ _
  by_cases hsub : x.exponentField = 0
  · simp only [significand, hsub, if_true, ne_eq, not_true, iff_false]
    intro hlog
    by_cases hzero : x.fraction = 0
    · simp [hzero] at hlog
    · have hlt := (Nat.log2_lt hzero).mpr hfraction
      omega
  · simp only [significand, hsub, if_false, Nat.pow_eq, ne_eq, not_false_eq_true,
      iff_true]
    have hne : 2 ^ 52 + x.fraction ≠ 0 := by omega
    have hle := (Nat.le_log2 hne).mpr (show 2 ^ 52 ≤ 2 ^ 52 + x.fraction by omega)
    have hlt := (Nat.log2_lt hne).mpr (show 2 ^ 52 + x.fraction < 2 ^ 53 by omega)
    omega

theorem pack_unpacked {x : Number} (hnan : x.isNaN = false) :
    pack .binary64 x.unpacked = x.bits.toBitVec := by
  have hbits := x.bits_toNat_eq
  have hsign := x.toNat_toBitVec_sign
  have hfraction := x.fraction_lt
  apply BitVec.eq_of_toNat_eq
  change _ = x.bits.toNat
  rcases x.kind_cases with h | hinf | hzero | ⟨hfinite, hzero⟩
  · rw [hnan] at h
    cases h
  · simp only [isInfinite, Bool.and_eq_true, decide_eq_true_iff] at hinf
    rw [unpacked_of_isInfinite (by simp [isInfinite, hinf]), pack, packedInfinity,
      toNat_packComponents, hbits, hsign, hinf.1, hinf.2]
    rfl
  · rw [unpacked_of_isZero hzero, pack, packedZero, toNat_packComponents, hbits, hsign,
      ((isZero_iff x).mp hzero).1, ((isZero_iff x).mp hzero).2]
    rfl
  · have hexponent : x.exponentField < 2047 := of_decide_eq_true hfinite
    have hfields := fields_of_not_isZero hzero
    have hbias : (x.binaryExponent + Format.binary64.exponentBias +
        Format.binary64.mantissaBitsWithoutImplicit).toNat = max x.exponentField 1 := by
      change (x.binaryExponent + 1023 + 52).toNat = _
      unfold binaryExponent
      split <;> omega
    have hroom : ¬ 2 ^ Format.binary64.exponentBits ≤ max x.exponentField 1 + 1 := by
      change ¬ 2 ^ 11 ≤ max x.exponentField 1 + 1
      omega
    rw [unpacked_of_isFinite hfinite hzero, pack]
    simp only [hbias]
    rw [if_neg hroom]
    by_cases hsub : x.exponentField = 0
    · rw [if_neg (by rw [log2_significand_iff]; simp [hsub]), toNat_packComponents,
        hbits, hsign, hsub, toNat_ofNat_significand]
      rfl
    · have hfield : (BitVec.ofNat 11 (max x.exponentField 1)).toNat =
          x.exponentField := by
        rw [BitVec.toNat_ofNat]
        omega
      rw [if_pos ((log2_significand_iff x).mpr hsub), toNat_packComponents, hbits, hsign,
        toNat_ofNat_significand, hfield]

theorem unpack_pack_unpacked (x : Number) :
    unpack .binary64 (pack .binary64 x.unpacked) = x.unpacked := by
  cases hnan : x.isNaN with
  | true =>
      rw [unpacked_of_isNaN hnan]
      rfl
  | false =>
      rw [pack_unpacked hnan]
      rfl

theorem unpacked_cases (x : Number) :
    (x.isNaN = true ∧ x.unpacked = .notANumber) ∨
      (x.isInfinite = true ∧ x.unpacked = .infinity x.sign) ∨
      (x.isZero = true ∧ x.unpacked = .zero x.sign) ∨
      ∃ hpos, x.unpacked = .finite x.sign x.significand x.binaryExponent hpos := by
  rcases x.kind_cases with hnan | hinf | hzero | ⟨hfinite, hzero⟩
  · exact .inl ⟨hnan, unpacked_of_isNaN hnan⟩
  · exact .inr (.inl ⟨hinf, unpacked_of_isInfinite hinf⟩)
  · exact .inr (.inr (.inl ⟨hzero, unpacked_of_isZero hzero⟩))
  · exact .inr (.inr (.inr ⟨_, unpacked_of_isFinite hfinite hzero⟩))

theorem isNaN_iff_unpacked {x : Number} :
    x.isNaN = true ↔ x.unpacked = .notANumber := by
  refine ⟨unpacked_of_isNaN, fun hparts => ?_⟩
  rcases x.unpacked_cases with ⟨hnan, -⟩ | ⟨-, hkind⟩ | ⟨-, hkind⟩ | ⟨_, hkind⟩
  · exact hnan
  all_goals
    rw [hkind] at hparts
    cases hparts

theorem isZero_iff_unpacked {x : Number} :
    x.isZero = true ↔ ∃ s, x.unpacked = .zero s := by
  refine ⟨fun hzero => ⟨_, unpacked_of_isZero hzero⟩, ?_⟩
  rintro ⟨s, hparts⟩
  rcases x.unpacked_cases with ⟨-, hkind⟩ | ⟨-, hkind⟩ | ⟨hzero, -⟩ | ⟨_, hkind⟩
  case inr.inr.inl => exact hzero
  all_goals
    rw [hkind] at hparts
    cases hparts

theorem same_iff_unpacked_eq {x y : Number} :
    x.Same y ↔ x.unpacked = y.unpacked := by
  constructor
  · rintro (rfl | ⟨hx, hy⟩)
    · rfl
    · rw [unpacked_of_isNaN hx, unpacked_of_isNaN hy]
  · intro hparts
    cases hnan : x.isNaN with
    | true =>
        have hy : y.isNaN = true := by
          rw [isNaN_iff_unpacked, ← hparts, ← isNaN_iff_unpacked, hnan]
        exact .inr ⟨hnan, hy⟩
    | false =>
        have hy : y.isNaN = false := by
          rw [Bool.eq_false_iff, ne_eq, isNaN_iff_unpacked, ← hparts,
            ← isNaN_iff_unpacked, hnan]
          exact Bool.false_ne_true
        have hbits : x.bits.toBitVec = y.bits.toBitVec := by
          rw [← pack_unpacked hnan, ← pack_unpacked hy, hparts]
        left
        cases x
        cases y
        exact congrArg Number.mk (UInt64.eq_of_toBitVec_eq hbits)

theorem eq_negativeZero_iff_unpacked {x : Number} :
    x = negativeZero ↔ x.unpacked = .zero .negative := by
  refine ⟨fun hx => by rw [hx]; rfl, fun hparts => ?_⟩
  rcases same_iff_unpacked_eq.mpr (hparts.trans (rfl : _ = negativeZero.unpacked)) with
    h | h
  · exact h
  · cases h.2

end ScriptTree.Number
