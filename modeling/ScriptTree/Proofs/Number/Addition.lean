import ScriptTree.Proofs.Number.Unpacked

/-!
Addition of numbers and the sign of zero. A sum is the zero below zero only if both
terms are, because a nonzero sum never rounds to zero. The sign of a zero term has no
influence on a sum beyond the sign of a zero.
-/

namespace ScriptTree.Number

open Float.Model (Format UnpackedFloat totalExponent)
open Float.Model.UnpackedFloat

theorem unpacked_add (x y : Number) :
    (x + y).unpacked =
      unpack .binary64
        (pack .binary64 (UnpackedFloat.add .binary64 x.unpacked y.unpacked)) := by
  have hparts : ∀ z : Number, z.toFloat.toModel.unpack = z.unpacked :=
    unpack_pack_unpacked
  change unpack .binary64 (pack .binary64
    (UnpackedFloat.add .binary64 x.toFloat.toModel.unpack y.toFloat.toModel.unpack)) = _
  rw [hparts, hparts]

/-! Rounding keeps a nonzero mantissa, as long as the exponent is in range. -/

theorem mantissa_shiftRight (em : ExtendedMantissa) (k : Nat) :
    (em >>> k).mantissa = em.mantissa / 2 ^ k := by
  induction k with
  | zero => exact (Nat.div_one _).symm
  | succ k ih =>
      change (em >>> k).mantissa / 2 = _
      rw [ih, Nat.div_div_eq_div_mul, Nat.pow_succ]

theorem mantissa_ofMantissaAndAccuracy (m : Nat) (a : Accuracy) :
    (ExtendedMantissa.ofMantissaAndAccuracy m a).mantissa = m := by
  unfold ExtendedMantissa.ofMantissaAndAccuracy
  split <;> rfl

theorem le_roundedMantissa (em : ExtendedMantissa) :
    em.mantissa ≤ em.roundedMantissa := by
  unfold ExtendedMantissa.roundedMantissa Accuracy.roundToNearestEven
  split <;> omega

theorem targetExponent_binary64 (t : Int) :
    Format.binary64.targetExponent t = max (t - 53) (-1074) := rfl

/-- How far a mantissa is shifted: never past its first bit, and until it has 53 bits. -/
theorem shiftAmount_bounds (m : Nat) {e : Int} (he : -1074 ≤ e) :
    (Format.binary64.targetExponent (totalExponent m e) - e).toNat ≤ m.log2 ∧
      m.log2 ≤ 52 + (Format.binary64.targetExponent (totalExponent m e) - e).toNat := by
  rw [targetExponent_binary64, totalExponent]
  omega

theorem div_shift_pos {m k : Nat} (hm : 0 < m) (hk : k ≤ m.log2) : 0 < m / 2 ^ k := by
  apply Nat.div_pos _ (Nat.two_pow_pos k)
  exact (Nat.pow_le_pow_right (by decide) hk).trans (Nat.log2_self_le (by omega))

theorem div_shift_lt {m k : Nat} (hk : m.log2 ≤ 52 + k) : m / 2 ^ k < 2 ^ 53 := by
  rw [Nat.div_lt_iff_lt_mul (Nat.two_pow_pos k), ← Nat.pow_add]
  exact Nat.lt_log2_self.trans_le (Nat.pow_le_pow_right (by decide) (by omega))

/-- The mantissa and exponent of a finite value within the format. -/
def Ranged (m : Nat) (e : Int) : Prop := 0 < m ∧ m < 2 ^ 53 ∧ -1074 ≤ e

theorem shiftToTargetExponent_ranged {m : Nat} {e : Int} (a : Accuracy) (hm : 0 < m)
    (he : -1074 ≤ e) :
    Ranged (shiftToTargetExponent .binary64 m e a).1.mantissa
      (shiftToTargetExponent .binary64 m e a).2 := by
  obtain ⟨hpast, huntil⟩ := shiftAmount_bounds m he
  simp only [shiftToTargetExponent, shiftToExponent, mantissa_shiftRight,
    mantissa_ofMantissaAndAccuracy]
  exact ⟨div_shift_pos hm hpast, div_shift_lt huntil, by omega⟩

theorem roundWithAccuracy_ranged (s : Sign) {m : Nat} {e : Int} (a : Accuracy)
    (hm : 0 < m) (he : -1074 ≤ e) :
    ∃ m' e' h, roundWithAccuracy .binary64 s m e a = .finite s m' e' h ∧
      Ranged m' e' := by
  have hfirst := shiftToTargetExponent_ranged a hm he
  have hrounded := hfirst.1.trans_le (le_roundedMantissa _)
  have hsecond := shiftToTargetExponent_ranged .exact hrounded hfirst.2.2
  refine ⟨_, _, hsecond.1, ?_, hsecond⟩
  unfold roundWithAccuracy
  exact dif_neg (Nat.ne_of_gt hsecond.1)

theorem round_ranged (s : Sign) {m : Nat} {e : Int} (hm : 0 < m) (he : -1074 ≤ e) :
    ∃ m' e' h, UnpackedFloat.round .binary64 s m e = .finite s m' e' h ∧
      Ranged m' e' := by
  unfold UnpackedFloat.round decreaseExponent
  apply roundWithAccuracy_ranged
  · rw [Nat.shiftLeft_eq]
    exact Nat.mul_pos hm (Nat.two_pow_pos _)
  · rw [targetExponent_binary64]
    omega

/-- A sum of finite values is the zero above zero or it is not zero. -/
theorem normalize_ranged (mantissa : Int) {e : Int} (he : -1074 ≤ e) :
    UnpackedFloat.normalize .binary64 mantissa e .positive = .zero .positive ∨
      ∃ s m' e' h,
        UnpackedFloat.normalize .binary64 mantissa e .positive = .finite s m' e' h ∧
          Ranged m' e' := by
  unfold UnpackedFloat.normalize
  cases hcompare : compare mantissa 0 with
  | lt =>
      have hneg := compare_lt_iff_lt.mp hcompare
      exact .inr ⟨_, round_ranged .negative (by omega) he⟩
  | eq => exact .inl rfl
  | gt =>
      have hpos := compare_gt_iff_gt.mp hcompare
      exact .inr ⟨_, round_ranged .positive (by omega) he⟩

/-! Packing a nonzero value does not give a zero. -/

theorem unpack_pack_notANumber :
    unpack .binary64 (pack .binary64 .notANumber) = .notANumber := rfl

theorem unpack_pack_infinity (s : Sign) :
    unpack .binary64 (pack .binary64 (.infinity s)) = .infinity s := by
  cases s <;> rfl

theorem unpack_pack_zero (s : Sign) :
    unpack .binary64 (pack .binary64 (.zero s)) = .zero s := by
  cases s <;> rfl

theorem fields_of_unpack_zero {b : BitVec Format.binary64.numBits} {s : Sign}
    (hzero : unpack .binary64 b = .zero s) :
    @unpackExponent .binary64 b = 0#_ ∧ @unpackMantissa .binary64 b = 0#_ := by
  let x : Number := ⟨⟨b⟩⟩
  have hfields := (isZero_iff x).mp (isZero_iff_unpacked.mpr ⟨s, hzero⟩)
  exact ⟨(unpackExponent_eq_zero_iff x).mpr hfields.1,
    (unpackMantissa_eq_zero_iff x).mpr hfields.2⟩

theorem unpack_pack_finite_ne_zero (s s' : Sign) {m : Nat} {e : Int} (h : 0 < m)
    (hrange : Ranged m e) :
    unpack .binary64 (pack .binary64 (.finite s m e h)) ≠ .zero s' := by
  obtain ⟨-, hlt, he⟩ := hrange
  have hbias : (e + Format.binary64.exponentBias +
      Format.binary64.mantissaBitsWithoutImplicit).toNat = (e + 1075).toNat := by
    change (e + 1023 + 52).toNat = _
    omega
  intro hzero
  obtain ⟨hexponent, hmantissa⟩ := fields_of_unpack_zero hzero
  simp only [pack, hbias] at hexponent hmantissa
  -- too large, normal or subnormal: one of the two fields is not zero
  split at hexponent
  · rw [packedInfinity, unpackExponent_packComponents] at hexponent
    revert hexponent
    decide
  next hroom =>
    rw [if_neg hroom] at hmantissa
    have hroom : ¬ 2 ^ 11 ≤ (e + 1075).toNat + 1 := hroom
    split at hexponent
    · rw [unpackExponent_packComponents] at hexponent
      have hfield := congrArg BitVec.toNat hexponent
      simp only [BitVec.toNat_ofNat] at hfield
      omega
    next hbits =>
      rw [if_neg hbits, unpackMantissa_packComponents] at hmantissa
      have hfield := congrArg BitVec.toNat hmantissa
      have hbits : ¬ m.log2 + 1 = 53 := hbits
      have hlog := (Nat.log2_lt (Nat.ne_of_gt h)).mpr hlt
      have hsmall : m < 2 ^ 52 := (Nat.log2_lt (Nat.ne_of_gt h)).mp (by omega)
      simp only [BitVec.toNat_ofNat] at hfield
      omega

/-! Sums of numbers, one kind of term at a time. -/

theorem le_exponent_of_unpacked {x : Number} {s : Sign} {m : Nat} {e : Int} {h : 0 < m}
    (hparts : x.unpacked = .finite s m e h) : -1074 ≤ e := by
  rcases x.unpacked_cases with ⟨-, hkind⟩ | ⟨-, hkind⟩ | ⟨-, hkind⟩ | ⟨_, hkind⟩
  case inr.inr.inr =>
    rw [hkind] at hparts
    cases hparts
    unfold binaryExponent
    split <;> omega
  all_goals
    rw [hkind] at hparts
    cases hparts

theorem unpacked_add_ne_of_not_isZero {x y : Number} (hx : x.isZero = false)
    (hy : y.isZero = false) : (x + y).unpacked ≠ .zero .negative := by
  rw [unpacked_add]
  cases hxparts : x.unpacked with
  | zero s => simp [isZero_iff_unpacked.mpr ⟨s, hxparts⟩] at hx
  | notANumber => simp [UnpackedFloat.add, unpack_pack_notANumber]
  | infinity s =>
      cases hyparts : y.unpacked with
      | zero t => simp [isZero_iff_unpacked.mpr ⟨t, hyparts⟩] at hy
      | notANumber => simp [UnpackedFloat.add, unpack_pack_notANumber]
      | infinity t =>
          simp only [UnpackedFloat.add]
          split <;> simp [unpack_pack_infinity, unpack_pack_notANumber]
      | finite t m e h => simp [UnpackedFloat.add, unpack_pack_infinity]
  | finite s m e h =>
      cases hyparts : y.unpacked with
      | zero t => simp [isZero_iff_unpacked.mpr ⟨t, hyparts⟩] at hy
      | notANumber => simp [UnpackedFloat.add, unpack_pack_notANumber]
      | infinity t => simp [UnpackedFloat.add, unpack_pack_infinity]
      | finite t m' e' h' =>
          have hmin : -1074 ≤ min e e' :=
            le_min (le_exponent_of_unpacked hxparts) (le_exponent_of_unpacked hyparts)
          simp only [UnpackedFloat.add]
          rcases normalize_ranged _ hmin with hzero | ⟨_, _, _, hpos, hfinite, hrange⟩
          · rw [hzero, unpack_pack_zero]
            simp
          · rw [hfinite]
            exact unpack_pack_finite_ne_zero _ _ hpos hrange

theorem unpacked_add_of_isZero_left {x y : Number} (hx : x.isZero = true)
    (hy : y.isZero = false) : (x + y).unpacked = y.unpacked := by
  rw [unpacked_add, unpacked_of_isZero hx]
  nth_rewrite 2 [← unpack_pack_unpacked y]
  cases hparts : y.unpacked with
  | zero s => simp [isZero_iff_unpacked.mpr ⟨s, hparts⟩] at hy
  | notANumber => rfl
  | infinity s => rfl
  | finite s m e h => rfl

theorem unpacked_add_of_isZero_right {x y : Number} (hx : x.isZero = false)
    (hy : y.isZero = true) : (x + y).unpacked = x.unpacked := by
  rw [unpacked_add, unpacked_of_isZero hy]
  nth_rewrite 2 [← unpack_pack_unpacked x]
  cases hparts : x.unpacked with
  | zero s => simp [isZero_iff_unpacked.mpr ⟨s, hparts⟩] at hx
  | notANumber => rfl
  | infinity s => rfl
  | finite s m e h => rfl

theorem unpacked_add_of_isZero {x y : Number} (hx : x.isZero = true)
    (hy : y.isZero = true) :
    ∃ s, (x + y).unpacked = .zero s ∧
      (s = .negative → x.sign = .negative ∧ y.sign = .negative) := by
  rw [unpacked_add, unpacked_of_isZero hx, unpacked_of_isZero hy]
  cases x.sign <;> cases y.sign
  · exact ⟨.negative, rfl, fun _ => ⟨rfl, rfl⟩⟩
  all_goals exact ⟨.positive, rfl, nofun⟩

/-- A sum is the zero below zero only if both terms are. -/
theorem add_eq_negativeZero_iff {x y : Number} :
    x + y = negativeZero ↔ x = negativeZero ∧ y = negativeZero := by
  refine ⟨fun hsum => ?_, fun hterms => by rw [hterms.1, hterms.2]; decide⟩
  simp only [eq_negativeZero_iff_unpacked] at hsum ⊢
  cases hx : x.isZero with
  | true =>
      cases hy : y.isZero with
      | true =>
          obtain ⟨s, hparts, hsigns⟩ := unpacked_add_of_isZero hx hy
          rw [hparts, UnpackedFloat.zero.injEq] at hsum
          rw [unpacked_of_isZero hx, unpacked_of_isZero hy, (hsigns hsum).1,
            (hsigns hsum).2]
          exact ⟨rfl, rfl⟩
      | false =>
          rw [unpacked_add_of_isZero_left hx hy] at hsum
          simp [isZero_iff_unpacked.mpr ⟨_, hsum⟩] at hy
  | false =>
      cases hy : y.isZero with
      | true =>
          rw [unpacked_add_of_isZero_right hx hy] at hsum
          simp [isZero_iff_unpacked.mpr ⟨_, hsum⟩] at hx
      | false => exact absurd hsum (unpacked_add_ne_of_not_isZero hx hy)

/-! Sums up to the sign of zero. -/

/-- The same number, but for the sign of zero. -/
def Similar (x y : Number) : Prop :=
  x.Same y ∨ (x.isZero = true ∧ y.isZero = true)

theorem Similar.refl (x : Number) : x.Similar x := .inl (.inl rfl)

theorem Similar.isZero_eq {x y : Number} (hsimilar : x.Similar y) :
    x.isZero = y.isZero := by
  rcases hsimilar with hsame | ⟨hx, hy⟩
  · rw [Bool.eq_iff_iff, isZero_iff_unpacked, isZero_iff_unpacked,
      same_iff_unpacked_eq.mp hsame]
  · rw [hx, hy]

theorem Similar.unpacked_eq {x y : Number} (hsimilar : x.Similar y)
    (hy : y.isZero = false) : x.unpacked = y.unpacked := by
  rcases hsimilar with hsame | ⟨-, hzero⟩
  · exact same_iff_unpacked_eq.mp hsame
  · rw [hzero] at hy
    cases hy

theorem similar_of_unpacked_eq {x y : Number} (hparts : x.unpacked = y.unpacked) :
    x.Similar y :=
  .inl (same_iff_unpacked_eq.mpr hparts)

theorem Similar.trans {x y z : Number} (hxy : x.Similar y) (hyz : y.Similar z) :
    x.Similar z := by
  cases hz : z.isZero with
  | true =>
      have hy := hyz.isZero_eq.trans hz
      exact .inr ⟨hxy.isZero_eq.trans hy, hz⟩
  | false =>
      have hy := hyz.isZero_eq.trans hz
      exact similar_of_unpacked_eq ((hxy.unpacked_eq hy).trans (hyz.unpacked_eq hz))

theorem isZero_add {x y : Number} (hx : x.isZero = true) (hy : y.isZero = true) :
    (x + y).isZero = true := by
  obtain ⟨s, hparts, -⟩ := unpacked_add_of_isZero hx hy
  exact isZero_iff_unpacked.mpr ⟨s, hparts⟩

/-- The signs of zero terms decide nothing about a sum but the sign of a zero. -/
theorem Similar.add {x x' y y' : Number} (hx : x.Similar x') (hy : y.Similar y') :
    (x + y).Similar (x' + y') := by
  have hxzero := hx.isZero_eq
  have hyzero := hy.isZero_eq
  cases hx' : x'.isZero with
  | true =>
      rw [hx'] at hxzero
      cases hy' : y'.isZero with
      | true =>
          rw [hy'] at hyzero
          exact .inr ⟨isZero_add hxzero hyzero, isZero_add hx' hy'⟩
      | false =>
          rw [hy'] at hyzero
          apply similar_of_unpacked_eq
          rw [unpacked_add_of_isZero_left hxzero hyzero,
            unpacked_add_of_isZero_left hx' hy', hy.unpacked_eq hy']
  | false =>
      rw [hx'] at hxzero
      cases hy' : y'.isZero with
      | true =>
          rw [hy'] at hyzero
          apply similar_of_unpacked_eq
          rw [unpacked_add_of_isZero_right hxzero hyzero,
            unpacked_add_of_isZero_right hx' hy', hx.unpacked_eq hx']
      | false =>
          apply similar_of_unpacked_eq
          rw [unpacked_add, unpacked_add, hx.unpacked_eq hx', hy.unpacked_eq hy']

theorem zero_add_similar (x : Number) : (zero + x).Similar x := by
  cases hx : x.isZero with
  | true => exact .inr ⟨isZero_add rfl hx, hx⟩
  | false => exact similar_of_unpacked_eq (unpacked_add_of_isZero_left rfl hx)

/-- A number other than the zero below zero is the same as a similar one, unless that
one is the zero below zero. -/
theorem Similar.same_iff {x y : Number} (hsimilar : x.Similar y)
    (hx : x ≠ negativeZero) : x.Same y ↔ y ≠ negativeZero := by
  rw [same_iff_unpacked_eq]
  constructor
  · rintro hparts rfl
    exact hx (eq_negativeZero_iff_unpacked.mpr
      (hparts.trans (eq_negativeZero_iff_unpacked.mp rfl)))
  · intro hy
    rcases hsimilar with hsame | ⟨hxzero, hyzero⟩
    · exact same_iff_unpacked_eq.mp hsame
    · rw [ne_eq, eq_negativeZero_iff_unpacked] at hx hy
      rw [unpacked_of_isZero hxzero] at hx ⊢
      rw [unpacked_of_isZero hyzero] at hy ⊢
      cases hsx : x.sign <;> cases hsy : y.sign <;> simp_all

end ScriptTree.Number
