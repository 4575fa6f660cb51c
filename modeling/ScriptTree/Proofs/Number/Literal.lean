import ScriptTree.Number.Layout
import ScriptTree.Proofs.Js.Syntax.Terminal

/-!
The text of a number in source text is a decimal literal, after a sign if the number is
below zero.
-/

namespace ScriptTree

open Js.Syntax (Whole Fraction Exponent DecimalLiteral)

/-! The decimal digits of natural numbers. -/

theorem isDigit_of_mem_toDigits {n : Nat} {c : Char} (hc : c ∈ Nat.toDigits 10 n) :
    c.isDigit = true :=
  Nat.isDigit_of_mem_toDigits (by decide) (by decide) hc

theorem exists_toDigits_cons {n : Nat} (hn : n ≠ 0) :
    ∃ c digits, Nat.toDigits 10 n = c :: digits ∧ c ≠ '0' := by
  induction n using Nat.strongRecOn with
  | _ n ih =>
      rw [Nat.toDigits_eq_if (by decide)]
      split
      next hlt =>
        refine ⟨n.digitChar, [], rfl, ?_⟩
        have hdigits : ∀ d < 10, d ≠ 0 → d.digitChar ≠ '0' := by decide
        exact hdigits n hlt hn
      next hge =>
        obtain ⟨c, digits, hdigits, hne⟩ := ih (n / 10) (by omega) (by omega)
        exact ⟨c, digits ++ [(n % 10).digitChar], by rw [hdigits]; rfl, hne⟩

theorem whole_append_of_ne_zero {n : Nat} {more : List Char} (hn : n ≠ 0)
    (hmore : ∀ d ∈ more, d.isDigit = true) : Whole (Nat.toDigits 10 n ++ more) := by
  obtain ⟨c, digits, hdigits, hne⟩ := exists_toDigits_cons hn
  have hall : ∀ d ∈ c :: digits, d.isDigit = true := fun d hd =>
    isDigit_of_mem_toDigits (hdigits ▸ hd)
  rw [hdigits]
  refine .positive (hall c (by simp)) hne fun d hd => ?_
  rcases List.mem_append.mp hd with hd | hd
  · exact hall d (by simp [hd])
  · exact hmore d hd

theorem whole_take_toDigits {n k : Nat} (hn : n ≠ 0) (hk : 0 < k) :
    Whole ((Nat.toDigits 10 n).take k) := by
  obtain ⟨c, digits, hdigits, hne⟩ := exists_toDigits_cons hn
  have hall : ∀ d ∈ c :: digits, d.isDigit = true := fun d hd =>
    isDigit_of_mem_toDigits (hdigits ▸ hd)
  obtain ⟨k, rfl⟩ := Nat.exists_eq_succ_of_ne_zero (Nat.ne_of_gt hk)
  rw [hdigits]
  refine .positive (hall c (by simp)) hne fun d hd => ?_
  exact hall d (by simp [List.mem_of_mem_take hd])

theorem whole_of_toDigits_cons {n : Nat} {c : Char} {rest : List Char}
    (hdigits : Nat.toDigits 10 n = c :: rest) : Whole [c] := by
  by_cases hzero : n = 0
  · rw [hzero, Nat.toDigits_zero] at hdigits
    cases hdigits
    exact .zero
  · have htake := whole_take_toDigits hzero (show 0 < 1 by decide)
    rwa [hdigits] at htake

namespace Decimal

theorem isDigit_of_mem_zeros {n : Nat} {c : Char} (hc : c ∈ (zeros n).toList) :
    c.isDigit = true := by
  rw [zeros, String.toList_ofList] at hc
  rw [List.eq_of_mem_replicate hc]
  rfl

theorem literal_of_whole {text : List Char} (hwhole : Whole text) :
    DecimalLiteral text := by
  have hliteral := DecimalLiteral.mk hwhole .none .none
  simpa using hliteral

/-- Positional notation is a whole number with or without a fraction, and digits stand on
both sides of a point. -/
theorem exists_positional (d : Decimal) :
    ∃ whole fraction, Whole whole ∧ Fraction fraction ∧ fraction ≠ ['.'] ∧
      d.positional.toList = whole ++ fraction := by
  have hdigits : ∀ c ∈ Nat.toDigits 10 d.digits, c.isDigit = true :=
    fun c => isDigit_of_mem_toDigits
  unfold positional
  cases d.exponent with
  | ofNat k =>
      by_cases hzero : d.digits = 0
      · exact ⟨['0'], [], .zero, .none, by simp, by simp [hzero]⟩
      · refine ⟨_, [], whole_append_of_ne_zero hzero fun c => isDigit_of_mem_zeros (n := k),
          .none, by simp, ?_⟩
        simp [hzero]
  | negSucc k =>
      simp only
      split
      next hplaces =>
        have hne : d.digits ≠ 0 := by
          intro hzero
          simp [hzero] at hplaces
        have hcut : 0 < (Nat.toDigits 10 d.digits).length - (k + 1) := by omega
        refine ⟨_, '.' :: (Nat.toDigits 10 d.digits).drop
            ((Nat.toDigits 10 d.digits).length - (k + 1)), whole_take_toDigits hne hcut,
          .point fun c hc => hdigits c (List.mem_of_mem_drop hc), ?_, by simp⟩
        simp only [ne_eq, List.cons.injEq, true_and, List.drop_eq_nil_iff]
        omega
      next =>
        refine ⟨['0'], '.' :: ((zeros (k + 1 - (Nat.toDigits 10 d.digits).length)).toList ++
          Nat.toDigits 10 d.digits), .zero, .point fun c hc => ?_, ?_, ?_⟩
        · rcases List.mem_append.mp hc with hc | hc
          · exact isDigit_of_mem_zeros hc
          · exact hdigits c hc
        · simp [Nat.toDigits_ne_nil]
        · simp

theorem decimalLiteral_positional (d : Decimal) : DecimalLiteral d.positional.toList := by
  obtain ⟨whole, fraction, hwhole, hfraction, -, htext⟩ := d.exists_positional
  have hliteral := DecimalLiteral.mk hwhole hfraction .none
  rwa [List.append_nil, ← htext] at hliteral

/-! Notation with an exponent, in which the plus sign is left out. -/

theorem exists_exponentDigits (width n : Nat) :
    ∃ digits, (exponentDigits width n).toList = digits ∧ digits ≠ [] ∧
      ∀ c ∈ digits, c.isDigit = true := by
  refine ⟨_, rfl, ?_, fun c hc => ?_⟩
  · simp [exponentDigits, Nat.toDigits_ne_nil]
  · simp only [exponentDigits, String.toList_append, String.toList_ofList,
      List.mem_append] at hc
    rcases hc with hc | hc
    · exact isDigit_of_mem_zeros hc
    · exact isDigit_of_mem_toDigits hc

theorem exists_scientific_head (d : Decimal) (width : Nat) :
    ∃ c fraction, Whole [c] ∧ Fraction fraction ∧ fraction ≠ ['.'] ∧
      (d.scientific width).toList = [c] ++ fraction ++
        'e' :: (if d.order < 0 then '-' else '+') ::
          (exponentDigits width d.order.natAbs).toList := by
  have hdigits : ∀ c ∈ Nat.toDigits 10 d.digits, c.isDigit = true :=
    fun c => isDigit_of_mem_toDigits
  have hsign : (if d.order < 0 then "e-" else "e+").toList =
      'e' :: [if d.order < 0 then '-' else '+'] := by
    split <;> rfl
  unfold scientific
  cases htext : Nat.toDigits 10 d.digits with
  | nil => exact absurd htext Nat.toDigits_ne_nil
  | cons c rest =>
      cases rest with
      | nil =>
          refine ⟨c, [], whole_of_toDigits_cons htext, .none, by simp, ?_⟩
          simp [hsign]
      | cons next rest =>
          refine ⟨c, '.' :: next :: rest, whole_of_toDigits_cons htext, .point ?_, by simp, ?_⟩
          · intro d hd
            exact hdigits d (by rw [htext]; exact List.mem_cons_of_mem _ hd)
          · simp [hsign]

end Decimal

namespace Number

theorem dropExponentPlus_append {cs : List Char} (hcs : 'e' ∉ cs) (rest : List Char) :
    dropExponentPlus (cs ++ rest) = cs ++ dropExponentPlus rest := by
  induction cs with
  | nil => rfl
  | cons c more ih =>
      rw [List.mem_cons, not_or] at hcs
      rw [List.cons_append, dropExponentPlus, ih hcs.2]
      · rfl
      · rintro _ rfl
        exact absurd rfl hcs.1

theorem not_mem_of_isDigit {c : Char} (hc : c.isDigit = false) {cs : List Char}
    (hcs : ∀ d ∈ cs, d.isDigit = true) : c ∉ cs := by
  intro hmem
  rw [hcs c hmem] at hc
  cases hc

theorem not_mem_whole {c : Char} (hc : c.isDigit = false) {whole : List Char}
    (hwhole : Whole whole) : c ∉ whole := by
  cases hwhole with
  | zero => exact not_mem_of_isDigit hc (List.forall_mem_singleton.mpr rfl)
  | positive hdigit _ hdigits =>
      exact not_mem_of_isDigit hc (List.forall_mem_cons.mpr ⟨hdigit, hdigits⟩)

theorem not_mem_fraction {c : Char} (hc : c.isDigit = false) (hpoint : c ≠ '.')
    {fraction : List Char} (hfraction : Fraction fraction) : c ∉ fraction := by
  cases hfraction with
  | none => exact List.not_mem_nil
  | point hdigits =>
      rw [List.mem_cons, not_or]
      exact ⟨hpoint, not_mem_of_isDigit hc hdigits⟩

theorem dropExponentPlus_of_not_mem {cs : List Char} (hcs : 'e' ∉ cs) :
    dropExponentPlus cs = cs := by
  have hself := dropExponentPlus_append hcs []
  rwa [List.append_nil, dropExponentPlus, List.append_nil] at hself

/-- Notation with an exponent, without the plus sign: one digit stands before the point, and the
exponent has a minus sign or none. -/
theorem exists_dropExponentPlus (d : Decimal) (width : Nat) :
    ∃ c fraction sign digits, Whole [c] ∧ Fraction fraction ∧ (sign = [] ∨ sign = ['-']) ∧
      (∀ d ∈ digits, d.isDigit = true) ∧ digits ≠ [] ∧
        dropExponentPlus (d.scientific width).toList =
          [c] ++ fraction ++ 'e' :: (sign ++ digits) := by
  obtain ⟨c, fraction, hwhole, hfraction, -, htext⟩ := d.exists_scientific_head width
  obtain ⟨digits, hexponent, hne, hdigits⟩ :=
    Decimal.exists_exponentDigits width d.order.natAbs
  have hfront : 'e' ∉ [c] ++ fraction := by
    rw [List.mem_append, not_or]
    exact ⟨not_mem_whole rfl hwhole, not_mem_fraction rfl (by decide) hfraction⟩
  rw [htext, hexponent, dropExponentPlus_append hfront]
  split
  · have hsigned : 'e' ∉ '-' :: digits := by
      rw [List.mem_cons, not_or]
      exact ⟨by decide, not_mem_of_isDigit rfl hdigits⟩
    refine ⟨c, fraction, ['-'], digits, hwhole, hfraction, .inr rfl, hdigits, hne, ?_⟩
    rw [dropExponentPlus, dropExponentPlus_of_not_mem hsigned]
    · rfl
    · rintro rest - heq
      exact absurd (List.cons.inj heq).1 (by decide)
  · exact ⟨c, fraction, [], digits, hwhole, hfraction, .inl rfl, hdigits, hne, rfl⟩

/-- Notation with an exponent is a decimal literal, also without the plus sign. -/
theorem decimalLiteral_scientific (d : Decimal) (width : Nat) :
    DecimalLiteral (dropExponentPlus (d.scientific width).toList) := by
  obtain ⟨c, fraction, sign, digits, hwhole, hfraction, hsign, hdigits, hne, htext⟩ :=
    exists_dropExponentPlus d width
  rw [htext]
  exact .mk hwhole hfraction (.mark (.inl rfl) (hsign.imp_right .inr) hdigits hne)

/-- The source text of a number is a decimal literal behind its sign. -/
theorem exists_literal {x : Number} (hnan : x.isNaN = false) :
    ∃ text, DecimalLiteral text ∧
      x.literal.toList = (if x.signbit then ['-'] else []) ++ text := by
  unfold literal layOut
  rw [if_neg (by simp [hnan])]
  split
  · have hexponent : Exponent ['e', '3', '0', '8'] :=
      .mark (.inl rfl) (.inl rfl) (List.all_eq_true.mp rfl) (by simp)
    have htwo : Whole ['2'] := .positive (by decide) (by decide) nofun
    refine ⟨['2', 'e', '3', '0', '8'], .mk htwo .none hexponent, ?_⟩
    cases x.signbit <;> rfl
  · have hsign : (if x.signbit then "-" else "").toList =
        if x.signbit then ['-'] else [] := by
      cases x.signbit <;> rfl
    simp only [String.toList_append, hsign, List.append_right_inj, exists_eq_right']
    split
    · exact x.shortest.decimalLiteral_positional
    · rw [String.toList_ofList]
      exact decimalLiteral_scientific x.shortest 2

end Number

end ScriptTree
