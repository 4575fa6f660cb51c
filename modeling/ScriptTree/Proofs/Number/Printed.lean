import ScriptTree.Proofs.Number.Magnitude
import ScriptTree.Proofs.Number.Numeral

/-!
The literal that is printed for a finite number has the value of the shortest decimal of the
number, and the size of the number decides whether it has an exponent.
-/

namespace ScriptTree

namespace Js.Syntax

/-! The value of decimal literals. -/

def digitsValue (digits : List Char) : ℕ := Nat.ofDigitChars 10 digits 0

def exponentValue : List Char → ℤ
  | [] => 0
  | _ :: '-' :: digits => -(digitsValue digits)
  | _ :: '+' :: digits => digitsValue digits
  | _ :: digits => digitsValue digits

def isExponentMark (c : Char) : Bool := c = 'e' || c = 'E'

/-- The exact value of a decimal literal. -/
def decimalValue (text : List Char) : ℚ :=
  let mantissa := text.takeWhile (!isExponentMark ·)
  let exponent := text.dropWhile (!isExponentMark ·)
  let whole := mantissa.takeWhile (· ≠ '.')
  let fraction := (mantissa.dropWhile (· ≠ '.')).tail
  (digitsValue whole + digitsValue fraction / 10 ^ fraction.length) * 10 ^ exponentValue exponent

/-! The forms in which numbers are printed. -/

/-- Digits with or without a point, and no exponent. -/
inductive Positional : List Char → Prop
  | mk {whole fraction : List Char} (hwhole : Whole whole) (hfraction : Fraction fraction) :
      Positional (whole ++ fraction)

/-- One digit before the point, and an exponent without a plus sign. -/
inductive Exponential : List Char → Prop
  | mk {c : Char} {fraction sign digits : List Char} (hwhole : Whole [c])
      (hfraction : Fraction fraction) (hsign : sign = [] ∨ sign = ['-'])
      (hdigits : ∀ d ∈ digits, d.isDigit = true) (hne : digits ≠ []) :
      Exponential ([c] ++ fraction ++ 'e' :: (sign ++ digits))

variable {text : List Char}

theorem Positional.not_mem (htext : Positional text) {c : Char} (hc : c.isDigit = false)
    (hpoint : c ≠ '.') : c ∉ text := by
  obtain ⟨hwhole, hfraction⟩ := htext
  rw [List.mem_append, not_or]
  exact ⟨Number.not_mem_whole hc hwhole, Number.not_mem_fraction hc hpoint hfraction⟩

theorem Exponential.mem (htext : Exponential text) : 'e' ∈ text := by
  obtain ⟨-, -, -, -, -⟩ := htext
  simp

theorem Exponential.not_mem_plus (htext : Exponential text) : '+' ∉ text := by
  obtain ⟨hwhole, hfraction, hsign, hdigits, -⟩ := htext
  have hfront := Number.not_mem_whole (c := '+') rfl hwhole
  have hpoint := Number.not_mem_fraction (c := '+') rfl (by decide) hfraction
  have hback := Number.not_mem_of_isDigit (c := '+') rfl hdigits
  rcases hsign with rfl | rfl <;> simp_all

theorem Positional.decimalLiteral (htext : Positional text) : DecimalLiteral text := by
  obtain ⟨hwhole, hfraction⟩ := htext
  simpa using DecimalLiteral.mk hwhole hfraction .none

theorem Exponential.decimalLiteral (htext : Exponential text) : DecimalLiteral text := by
  obtain ⟨hwhole, hfraction, hsign, hdigits, hne⟩ := htext
  exact .mk hwhole hfraction (.mark (.inl rfl) (hsign.imp_right .inr) hdigits hne)

theorem head_ne_of_decimalLiteral (htext : DecimalLiteral text) : text.head? ≠ some '-' := by
  obtain ⟨hwhole, -, -⟩ := htext
  cases hwhole with
  | zero => simp
  | positive hdigit =>
      rintro ⟨⟩
      cases hdigit

end Js.Syntax

namespace Number

open Js.Syntax

/-! The value of a numeral. -/

theorem exponentValue_of_power {power : List Char} {e : ℤ} (hpower : Power power e) :
    exponentValue power = e := by
  cases hpower with
  | none => rfl
  | @mark c cs e hmark hread =>
      obtain ⟨hdigits, rfl⟩ := digits_of_exponent? hread
      rw [valueOf_ten hdigits]
      unfold takeSign
      split
      next => rfl
      next => rfl
      next hminus hplus =>
        rw [exponentValue]
        · rfl
        · exact hminus
        · exact hplus

theorem isExponentMark_of_isDigit {c : Char} (hc : c.isDigit = true) :
    (!isExponentMark c) = true := by
  have hne (mark : Char) (hmark : mark.isDigit = false) : c ≠ mark := by
    intro heq
    rw [heq, hmark] at hc
    exact Bool.false_ne_true hc
  simp [isExponentMark, hne 'e' rfl, hne 'E' rfl]

theorem isExponentMark_of_mantissa {whole fraction : List Char} (hwhole : Whole whole)
    (hfraction : ∀ c ∈ fraction, c.isDigit = true) :
    ∀ c ∈ whole ++ withPoint fraction, (!isExponentMark c) = true := by
  intro c hc
  rcases List.mem_append.mp hc with hc | hc
  · exact isExponentMark_of_isDigit (isDigit_of_whole hwhole c hc)
  · cases fraction with
    | nil => cases hc
    | cons d fraction =>
        rcases List.mem_cons.mp hc with rfl | hc
        · rfl
        · exact isExponentMark_of_isDigit (hfraction c hc)

/-- The digits on both sides of the point together are the digits of the decimal. -/
theorem digitsValue_append {whole fraction : List Char} (hwhole : Whole whole)
    (hfraction : ∀ c ∈ fraction, c.isDigit = true) :
    (digitsValue whole + digitsValue fraction / 10 ^ fraction.length : ℚ) =
      valueOf 10 (whole ++ fraction) / 10 ^ fraction.length := by
  have hdigits := List.forall_mem_append.mpr ⟨isDigit_of_whole hwhole, hfraction⟩
  rw [valueOf_ten hdigits, Nat.ofDigitChars_append, Nat.ofDigitChars_eq_ofDigitChars_zero,
    digitsValue, digitsValue]
  push_cast
  field_simp

theorem decimalValue_of_denotes {text : List Char} {d : Decimal} (hdenotes : Denotes text d) :
    decimalValue text = d.value := by
  cases hdenotes with
  | @mk whole fraction power e hwhole hfraction hpower =>
      have hmark : ∀ c, power.head? = some c → (!isExponentMark c) = false := by
        intro c hc
        rcases head_of_power hpower c hc with rfl | rfl <;> rfl
      have hwhole' : ∀ c ∈ whole, decide (c ≠ '.') = true := by
        intro c hc
        rw [decide_eq_true_eq]
        rintro rfl
        cases isDigit_of_whole hwhole '.' hc
      have hpoint : ∀ c, (withPoint fraction).head? = some c → decide (c ≠ '.') = false := by
        cases fraction with
        | nil => nofun
        | cons d fraction =>
            rintro c ⟨⟩
            rfl
      have htail : (withPoint fraction).tail = fraction := by
        cases fraction <;> rfl
      obtain ⟨htake, hdrop⟩ := span_append (isExponentMark_of_mantissa hwhole hfraction) hmark
      obtain ⟨htake', hdrop'⟩ := span_append hwhole' hpoint
      rw [decimalValue, ← List.append_assoc]
      simp only [htake, hdrop, htake', hdrop', htail, exponentValue_of_power hpower,
        digitsValue_append hwhole hfraction, Decimal.value]
      rw [zpow_sub₀ (by norm_num), zpow_natCast]
      ring

/-! Dropping the plus sign of an exponent. -/

theorem exponent?_of_plus {digits : List Char} {e : ℤ}
    (hread : exponent? ('+' :: digits) = some e) : exponent? digits = some e := by
  have hsign : takeSign digits = (false, digits) := by
    have hdigits : ∀ c ∈ digits, c.isDigit = true := (digits_of_exponent? hread).1
    unfold takeSign
    split
    next => cases hdigits '-' List.mem_cons_self
    next => cases hdigits '+' List.mem_cons_self
    next => rfl
  rw [exponent?, hsign]
  exact hread

theorem power_dropExponentPlus {power : List Char} {e : ℤ} (hpower : Power power e) :
    Power (dropExponentPlus power) e := by
  cases hpower with
  | none => exact .none
  | @mark c cs e hmark hread =>
      have hrest : 'e' ∉ cs := by
        intro hmem
        rcases mem_of_exponent? hread 'e' hmem with hdigit | hsign
        · cases hdigit
        · simp at hsign
      unfold dropExponentPlus
      split
      next rest heq =>
        obtain ⟨rfl, rfl⟩ := List.cons.inj heq
        exact .mark hmark (exponent?_of_plus hread)
      next heq =>
        obtain ⟨rfl, rfl⟩ := List.cons.inj heq
        rw [dropExponentPlus_of_not_mem hrest]
        exact .mark hmark hread
      next heq => cases heq

theorem denotes_dropExponentPlus {text : List Char} {d : Decimal} (hdenotes : Denotes text d) :
    Denotes (dropExponentPlus text) d := by
  cases hdenotes with
  | @mk whole fraction power e hwhole hfraction hpower =>
      have hfront : 'e' ∉ whole ++ withPoint fraction := by
        intro hmem
        have hmark := isExponentMark_of_mantissa hwhole hfraction 'e' hmem
        cases hmark
      rw [← List.append_assoc, dropExponentPlus_append hfront, List.append_assoc]
      exact .mk hwhole hfraction (power_dropExponentPlus hpower)

/-! Where positional notation ends. -/

theorem isPlain_iff_absValue (x : Number) :
    x.isPlain = true ↔ x.absValue = 0 ∨
      (ofDecimal false 1 (-6)).absValue ≤ x.absValue ∧ x.absValue < 10 ^ 21 := by
  have hmost : (ofDecimal false 1 21).absValue = 10 ^ 21 := by
    have hsignificand : (ofDecimal false 1 21).significand = 7629394531250000 := by decide
    have hexponent : (ofDecimal false 1 21).binaryExponent = 17 := by decide
    rw [absValue, hsignificand, hexponent]
    norm_num
  rw [isPlain, Bool.or_eq_true, Bool.and_eq_true, decide_eq_true_eq, decide_eq_true_eq, ← hmost,
    absValue_eq_zero_iff, absValue_le_iff, ← not_le, ← not_le, absValue_le_iff]

theorem isPlain_iff_shortest {x : Number} (hfinite : x.isFinite = true) :
    x.isPlain = true ↔ x.shortest.value = 0 ∨
      (10 : ℚ) ^ (-6 : ℤ) ≤ x.shortest.value ∧ x.shortest.value < 10 ^ 21 := by
  have hleast : (ofDecimal false 1 (-6)).shortest.value = (10 : ℚ) ^ (-6 : ℤ) := by
    have hshortest : (ofDecimal false 1 (-6)).shortest = ⟨1, -6⟩ := by decide
    rw [hshortest, Decimal.value, Nat.cast_one, one_mul]
  have hmost : (ofDecimal false 1 21).shortest.value = 10 ^ 21 := by
    have hshortest : (ofDecimal false 1 21).shortest = ⟨1, 21⟩ := by decide
    rw [hshortest, Decimal.value, Nat.cast_one, one_mul]
    rfl
  have hleastFinite : (ofDecimal false 1 (-6)).isFinite = true := by decide
  have hmostFinite : (ofDecimal false 1 21).isFinite = true := by decide
  rw [isPlain, Bool.or_eq_true, Bool.and_eq_true, decide_eq_true_eq, decide_eq_true_eq, ← hleast,
    ← hmost, value_shortest_eq_zero_iff hfinite, value_shortest_le_iff hleastFinite hfinite,
    ← not_le, ← not_le, value_shortest_le_iff hmostFinite hfinite]

/-! The printed literal. -/

theorem positional_positional (d : Decimal) : Positional d.positional.toList := by
  obtain ⟨whole, fraction, hwhole, hfraction, -, htext⟩ := d.exists_positional
  rw [htext]
  exact .mk hwhole hfraction

theorem exponential_scientific (d : Decimal) (width : ℕ) :
    Exponential (dropExponentPlus (d.scientific width).toList) := by
  obtain ⟨c, fraction, sign, digits, hwhole, hfraction, hsign, hdigits, hne, htext⟩ :=
    exists_dropExponentPlus d width
  rw [htext]
  exact .mk hwhole hfraction hsign hdigits hne

theorem literal_eq {x : Number} (hfinite : x.isFinite = true) :
    x.literal.toList = (if x.signbit then ['-'] else []) ++
      if x.isPlain then x.shortest.positional.toList
      else dropExponentPlus (x.shortest.scientific 2).toList := by
  obtain ⟨hnan, hinfinite⟩ := special_of_isFinite hfinite
  rw [literal, layOut, hnan, hinfinite, if_neg Bool.false_ne_true, if_neg Bool.false_ne_true]
  cases x.signbit <;> cases x.isPlain <;> simp

/-- A finite number is printed as a decimal literal of the value of its shortest decimal, with a
minus sign exactly if its sign is set. It has no exponent exactly if it is zero or in the range
from `1e-6` up to `1e21`. -/
theorem literal_denotes_shortest {x : Number} (hfinite : x.isFinite = true) :
    ∃ text, x.literal.toList = (if x.signbit then ['-'] else []) ++ text ∧
      text.head? ≠ some '-' ∧ '+' ∉ text ∧ DecimalLiteral text ∧
      decimalValue text = x.shortest.value ∧
      (Positional text ↔ x.absValue = 0 ∨
        (ofDecimal false 1 (-6)).absValue ≤ x.absValue ∧ x.absValue < 10 ^ 21) ∧
      (Positional text ↔ x.shortest.value = 0 ∨
        (10 : ℚ) ^ (-6 : ℤ) ≤ x.shortest.value ∧ x.shortest.value < 10 ^ 21) ∧
      (Exponential text ↔ ¬ Positional text) := by
  rw [← isPlain_iff_absValue, ← isPlain_iff_shortest hfinite]
  refine ⟨_, literal_eq hfinite, ?_⟩
  cases x.isPlain with
  | true =>
      have hform := positional_positional x.shortest
      obtain ⟨same, hdenotes, hvalue⟩ := denotes_positional x.shortest
      have hnot : ¬ Exponential x.shortest.positional.toList :=
        fun h => hform.not_mem rfl (by decide) h.mem
      rw [if_pos rfl]
      exact ⟨head_ne_of_decimalLiteral hform.decimalLiteral, hform.not_mem rfl (by decide),
        hform.decimalLiteral, (decimalValue_of_denotes hdenotes).trans hvalue,
        iff_of_true hform rfl, iff_of_true hform rfl, iff_of_false hnot (not_not.mpr hform)⟩
  | false =>
      have hform := exponential_scientific x.shortest 2
      have hdenotes := denotes_dropExponentPlus (denotes_scientific x.shortest 2)
      have hnot : ¬ Positional (dropExponentPlus (x.shortest.scientific 2).toList) :=
        fun h => h.not_mem rfl (by decide) hform.mem
      rw [if_neg Bool.false_ne_true]
      exact ⟨head_ne_of_decimalLiteral hform.decimalLiteral, hform.not_mem_plus,
        hform.decimalLiteral, decimalValue_of_denotes hdenotes,
        iff_of_false hnot Bool.false_ne_true, iff_of_false hnot Bool.false_ne_true,
        iff_of_true hform hnot⟩

theorem literal_denotes_shortest_belowRange :
    (ofDecimal true 15 (-8)).literal.toList = '-' :: "1.5e-07".toList ∧
      decimalValue "1.5e-07".toList = 15 * 10 ^ (-8 : ℤ) ∧ Exponential "1.5e-07".toList := by
  have hfinite : (ofDecimal true 15 (-8)).isFinite = true := by decide
  have hsign : (ofDecimal true 15 (-8)).signbit = true := by decide
  have hliteral : (ofDecimal true 15 (-8)).literal.toList = '-' :: "1.5e-07".toList := by
    decide +kernel
  have hshortest : (ofDecimal true 15 (-8)).shortest = ⟨15, -8⟩ := by decide
  obtain ⟨text, htext, -, -, -, hvalue, -, hplain, hform⟩ := literal_denotes_shortest hfinite
  rw [hliteral, hsign, if_pos rfl, List.singleton_append] at htext
  obtain rfl := (List.cons.inj htext).2
  rw [hshortest, Decimal.value] at hvalue hplain
  refine ⟨hliteral, hvalue, hform.mpr fun hpositional => ?_⟩
  have hrange := hplain.mp hpositional
  norm_num at hrange

/-! Beyond the range the general form has an exponent. -/

theorem order_bounds {d : Decimal} (hdigits : 0 < d.digits) :
    (10 : ℚ) ^ d.order ≤ d.value ∧ d.value < 10 ^ (d.order + 1) := by
  obtain ⟨hlow, hhigh⟩ := digitCount_bounds hdigits
  have horder : d.order = (digitCount d.digits : ℤ) - 1 + d.exponent := by
    rw [Decimal.order, digitCount]
    ring
  have hnext : d.order + 1 = (digitCount d.digits : ℤ) + d.exponent := by
    rw [horder]
    ring
  rw [hnext, horder, zpow_add₀ (by norm_num), zpow_add₀ (by norm_num), Decimal.value]
  constructor <;> gcongr

/-- A number that is not printed positionally is printed in the general form, apart from the
plus sign of its exponent. -/
theorem literal_eq_general {x : Number} (hfinite : x.isFinite = true) (hplain : x.isPlain = false) :
    x.literal.toList = dropExponentPlus x.general.toList := by
  have hrange := mt (isPlain_iff_shortest hfinite).mpr (by rw [hplain]; exact Bool.false_ne_true)
  rw [not_or, not_and_or, not_le, not_lt] at hrange
  obtain ⟨hvalue, hsize⟩ := hrange
  have hdigits : 0 < x.shortest.digits := by
    apply Nat.pos_of_ne_zero
    intro hnone
    rw [Decimal.value, hnone, Nat.cast_zero, zero_mul] at hvalue
    exact hvalue rfl
  obtain ⟨hlow, hhigh⟩ := order_bounds hdigits
  have horder : x.shortest.order < -4 ∨ 6 ≤ x.shortest.order := by
    rcases hsize with hsmall | hlarge
    · have hlt := (zpow_lt_zpow_iff_right₀ (by norm_num : (1 : ℚ) < 10)).mp
        (hlow.trans_lt hsmall)
      omega
    · have hlt := (zpow_lt_zpow_iff_right₀ (by norm_num : (1 : ℚ) < 10)).mp
        ((zpow_natCast (10 : ℚ) 21).trans_le hlarge |>.trans_lt hhigh)
      omega
  have hexponent : (x.shortest.digits ≠ 0 &&
      (x.shortest.order < -4 || 6 ≤ x.shortest.order)) = true := by
    simpa [hdigits.ne'] using horder
  obtain ⟨hnan, hinfinite⟩ := special_of_isFinite hfinite
  rw [literal_eq hfinite, hplain, general, layOut, hnan, hinfinite]
  simp only [Bool.false_eq_true, if_false, hexponent, if_true, String.toList_append]
  rw [dropExponentPlus_append]
  · cases x.signbit <;> rfl
  · cases x.signbit <;> decide

end Number

end ScriptTree
