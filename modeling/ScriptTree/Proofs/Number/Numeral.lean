import ScriptTree.Number.Reader
import ScriptTree.Proofs.Json.Grammar
import ScriptTree.Proofs.Number.Literal
import ScriptTree.Proofs.Number.Shortest

/-!
Numerals and the decimals that they denote. A numeral is read as the number nearest to its
decimal.
-/

namespace ScriptTree

open Js.Syntax (Whole Fraction Exponent DecimalLiteral)

namespace Number

/-! Digits. -/

theorem digitValue?_of_isDigit {c : Char} (hc : c.isDigit = true) :
    digitValue? c = some (c.toNat - 48) := by
  rw [digitValue?, if_pos]
  exact hc

theorem isDigitOf_ten (c : Char) : isDigitOf 10 c = c.isDigit := by
  cases hc : c.isDigit with
  | true =>
      have hbounds : 48 ≤ c.toNat ∧ c.toNat ≤ 57 := Char.isDigit_iff_toNat.mp hc
      rw [isDigitOf, digitValue?_of_isDigit hc]
      simp only [decide_eq_true_eq]
      omega
  | false =>
      have hnot : ('0' ≤ c && c ≤ '9') = false := hc
      rw [isDigitOf, digitValue?, hnot]
      split
      next d hd =>
        rw [if_neg Bool.false_ne_true] at hd
        split at hd
        next hlower =>
          have hle : 97 ≤ c.toNat := (Bool.and_eq_true_iff.mp hlower).1 |> of_decide_eq_true
          obtain rfl := Option.some.inj hd
          simp only [decide_eq_false_iff_not]
          omega
        next =>
          split at hd
          next hupper =>
            have hle : 65 ≤ c.toNat := (Bool.and_eq_true_iff.mp hupper).1 |> of_decide_eq_true
            obtain rfl := Option.some.inj hd
            simp only [decide_eq_false_iff_not]
            omega
          next => cases hd
      next => rfl

theorem valueOf_ten {cs : List Char} (hcs : ∀ c ∈ cs, c.isDigit = true) :
    valueOf 10 cs = Nat.ofDigitChars 10 cs 0 := by
  have hfold (n : Nat) : cs.foldl (fun n c => n * 10 + (digitValue? c).getD 0) n =
      Nat.ofDigitChars 10 cs n := by
    induction cs generalizing n with
    | nil => rfl
    | cons c cs ih =>
        obtain ⟨hc, hmore⟩ := List.forall_mem_cons.mp hcs
        rw [List.foldl_cons, digitValue?_of_isDigit hc, ih hmore, Option.getD_some, Nat.mul_comm]
        rfl
  exact hfold 0

theorem valueOf_toDigits (n : Nat) : valueOf 10 (Nat.toDigits 10 n) = n := by
  rw [valueOf_ten fun c => isDigit_of_mem_toDigits, Nat.ofDigitChars_ten_toDigits]

/-! What a numeral denotes. -/

/-- An exponent with its mark, or none. -/
inductive Power : List Char → Int → Prop
  | none : Power [] 0
  | mark {c : Char} {cs : List Char} {e : Int} (hmark : c = 'e' ∨ c = 'E')
      (hread : exponent? cs = some e) : Power (c :: cs) e

/-- The digits after a point; without digits there is no point. -/
def withPoint (fraction : List Char) : List Char :=
  if fraction.isEmpty then [] else '.' :: fraction

/-- An unsigned numeral and its decimal. -/
inductive Denotes : List Char → Decimal → Prop
  | mk {whole fraction power : List Char} {e : Int} (hwhole : Whole whole)
      (hfraction : ∀ c ∈ fraction, c.isDigit = true) (hpower : Power power e) :
      Denotes (whole ++ (withPoint fraction ++ power))
        ⟨valueOf 10 (whole ++ fraction), e - fraction.length⟩

theorem isDigit_of_whole {whole : List Char} (hwhole : Whole whole) :
    ∀ c ∈ whole, c.isDigit = true := by
  cases hwhole with
  | zero => exact List.forall_mem_singleton.mpr rfl
  | positive hdigit _ hdigits => exact List.forall_mem_cons.mpr ⟨hdigit, hdigits⟩

theorem span_digits {digits tail : List Char} (hdigits : ∀ c ∈ digits, c.isDigit = true)
    (htail : ∀ c ∈ tail.head?, c.isDigit = false) :
    (digits ++ tail).takeWhile (isDigitOf 10) = digits ∧
      (digits ++ tail).dropWhile (isDigitOf 10) = tail := by
  have hall : ∀ c ∈ digits, isDigitOf 10 c = true :=
    fun c hc => (isDigitOf_ten c).trans (hdigits c hc)
  have hends : ∀ c, tail.head? = some c → isDigitOf 10 c = false :=
    fun c hc => (isDigitOf_ten c).trans (htail c hc)
  exact Js.Syntax.span_append hall hends

theorem head_of_power {power : List Char} {e : Int} (hpower : Power power e) :
    ∀ c ∈ power.head?, c = 'e' ∨ c = 'E' := by
  cases hpower with
  | none => nofun
  | mark hmark =>
      rintro c ⟨⟩
      exact hmark

theorem takeMantissa_of_parts {whole fraction power : List Char} {e : Int} (hwhole : Whole whole)
    (hfraction : ∀ c ∈ fraction, c.isDigit = true) (hpower : Power power e) :
    takeMantissa 10 (whole ++ (withPoint fraction ++ power)) = (whole, fraction, power) := by
  have hends : ∀ c ∈ power.head?, c.isDigit = false ∧ c ≠ '.' := by
    intro c hc
    rcases head_of_power hpower c hc with rfl | rfl <;> exact ⟨rfl, by decide⟩
  have hfront : ∀ c ∈ (withPoint fraction ++ power).head?, c.isDigit = false := by
    cases fraction with
    | nil => exact fun c hc => (hends c hc).1
    | cons d fraction =>
        rintro c ⟨⟩
        rfl
  obtain ⟨htake, hdrop⟩ := span_digits (isDigit_of_whole hwhole) hfront
  rw [takeMantissa, htake, hdrop]
  cases fraction with
  | nil =>
      simp only [withPoint, List.isEmpty_nil, if_true, List.nil_append]
      split
      next rest => exact absurd rfl (hends '.' rfl).2
      next => rfl
  | cons d fraction =>
      obtain ⟨htake', hdrop'⟩ := span_digits hfraction fun c hc => (hends c hc).1
      simp only [withPoint, List.isEmpty_cons, Bool.false_eq_true, if_false, List.cons_append]
      rw [← List.cons_append, htake', hdrop']

theorem decimal?_of_denotes {text : List Char} {d : Decimal} (hdenotes : Denotes text d)
    (negative : Bool) :
    decimal? negative text = some (marked (ofDecimal negative d.digits d.exponent)) := by
  obtain ⟨hwhole, hfraction, hpower⟩ := hdenotes
  have hempty : ∀ {whole : List Char}, Whole whole → whole.isEmpty = false := by
    rintro _ (_ | _) <;> rfl
  rw [decimal?, takeMantissa_of_parts hwhole hfraction hpower]
  simp only [hempty hwhole, Bool.false_and, Bool.false_eq_true, if_false]
  cases hpower with
  | none => rfl
  | mark hmark hread =>
      have hmark' : ∀ {c : Char}, c = 'e' ∨ c = 'E' → (c = 'e' || c = 'E') = true := by simp
      simp only [hmark' hmark, if_true, hread, Option.map_some]

/-- An exponent is read from the digits behind its sign. -/
theorem digits_of_exponent? {cs : List Char} {e : Int} (hread : exponent? cs = some e) :
    (∀ c ∈ (takeSign cs).2, c.isDigit = true) ∧
      e = if (takeSign cs).1 then -(valueOf 10 (takeSign cs).2 : Int)
        else valueOf 10 (takeSign cs).2 := by
  rw [exponent?] at hread
  simp only at hread
  split at hread
  next => cases hread
  next hall =>
    simp only [Bool.or_eq_true, not_or, Bool.not_eq_true', Bool.not_eq_false] at hall
    exact ⟨List.all_eq_true.mp hall.2, (Option.some.inj hread).symm⟩

theorem mem_of_exponent? {cs : List Char} {e : Int} (hread : exponent? cs = some e) :
    ∀ c ∈ cs, c.isDigit = true ∨ c ∈ ['+', '-'] := by
  have hdigits := (digits_of_exponent? hread).1
  unfold takeSign at hdigits
  split at hdigits
  next => exact List.forall_mem_cons.mpr ⟨.inr (by simp), fun c hc => .inl (hdigits c hc)⟩
  next => exact List.forall_mem_cons.mpr ⟨.inr (by simp), fun c hc => .inl (hdigits c hc)⟩
  next => exact fun c hc => .inl (hdigits c hc)

theorem mem_of_denotes {text : List Char} {d : Decimal} (hdenotes : Denotes text d) :
    ∀ c ∈ text, c.isDigit = true ∨ c ∈ ['.', 'e', 'E', '+', '-'] := by
  obtain ⟨hwhole, hfraction, hpower⟩ := hdenotes
  rw [List.forall_mem_append, List.forall_mem_append]
  refine ⟨fun c hc => .inl (isDigit_of_whole hwhole c hc), ?_, ?_⟩
  · intro c hc
    rw [withPoint] at hc
    split at hc
    · cases hc
    · rcases List.mem_cons.mp hc with rfl | hc
      · exact .inr (by simp)
      · exact .inl (hfraction c hc)
  · cases hpower with
    | none => nofun
    | mark hmark hread =>
        refine List.forall_mem_cons.mpr ⟨.inr ?_, fun c hc => ?_⟩
        · rcases hmark with rfl | rfl <;> simp
        · exact (mem_of_exponent? hread c hc).imp_right fun h => by simp_all

theorem exists_cons_of_denotes {text : List Char} {d : Decimal} (hdenotes : Denotes text d) :
    ∃ c more, text = c :: more ∧ c.isDigit = true := by
  obtain ⟨hwhole, -, -⟩ := hdenotes
  cases hwhole with
  | zero => exact ⟨'0', _, rfl, rfl⟩
  | positive hdigit => exact ⟨_, _, rfl, hdigit⟩

theorem underscoresSeparate_of_not_mem {digit : Char → Bool} {cs : List Char} (hcs : '_' ∉ cs)
    (after : Bool) : underscoresSeparate digit after cs = true := by
  induction cs generalizing after with
  | nil => rfl
  | cons c cs ih =>
      rw [List.mem_cons, not_or] at hcs
      rw [underscoresSeparate, ih hcs.2]
      rintro rfl
      exact absurd rfl hcs.1

theorem asciiLower_of_isDigit {c : Char} (hc : c.isDigit = true) : asciiLower c = c := by
  have hbounds : 48 ≤ c.toNat ∧ c.toNat ≤ 57 := Char.isDigit_iff_toNat.mp hc
  rw [asciiLower, Char.toLower, dif_neg]
  rintro ⟨hupper, -⟩
  have hle : 65 ≤ c.toNat := hupper
  omega

theorem map_asciiLower_ne {c d : Char} {more name : List Char} (hc : asciiLower c ≠ d) :
    String.ofList ((c :: more).map asciiLower) ≠ String.ofList (d :: name) := by
  intro heq
  exact hc (List.cons.inj (String.ofList_injective heq)).1

theorem ne_of_isDigit {c x : Char} (hc : c.isDigit = true) (hx : x.isDigit = false) : c ≠ x := by
  rintro rfl
  rw [hc] at hx
  cases hx

theorem takeSign_signed {c : Char} (hc : c.isDigit = true) (more : List Char) (negative : Bool) :
    takeSign ((if negative then ['-'] else []) ++ c :: more) = (negative, c :: more) := by
  cases negative with
  | true => rfl
  | false =>
      rw [if_neg Bool.false_ne_true, List.nil_append, takeSign]
      · rintro rest ⟨⟩
        exact ne_of_isDigit hc (x := '-') rfl rfl
      · rintro rest ⟨⟩
        exact ne_of_isDigit hc (x := '+') rfl rfl

theorem signed_ne_nan {c : Char} (hc : c.isDigit = true) (more : List Char) (negative : Bool) :
    (String.ofList ((if negative then ['-'] else []) ++ c :: more)).map asciiLower ≠ "nan" := by
  intro heq
  have hlist := congrArg String.toList heq
  rw [String.toList_map, String.toList_ofList] at hlist
  cases negative with
  | true => exact absurd (List.cons.inj hlist).1 (by decide)
  | false =>
      have hfirst : asciiLower c = 'n' := (List.cons.inj hlist).1
      rw [asciiLower_of_isDigit hc] at hfirst
      exact ne_of_isDigit hc rfl hfirst

/-- What begins with a digit, and is neither hexadecimal nor has underscores, is decimal. -/
theorem read?_signed {c : Char} {more : List Char} (hc : c.isDigit = true)
    (hplain : ∀ x ∈ ['x', 'X', '_'], x ∉ c :: more) (negative : Bool) :
    read? (String.ofList ((if negative then ['-'] else []) ++ c :: more)) =
      decimal? negative (c :: more) := by
  have hname : ∀ name : List Char,
      String.ofList ((c :: more).map asciiLower) ≠ String.ofList ('i' :: name) := fun name =>
    map_asciiLower_ne (by rw [asciiLower_of_isDigit hc]; exact ne_of_isDigit hc rfl)
  have hinf : String.ofList ((c :: more).map asciiLower) ≠ "inf" := hname ['n', 'f']
  have hinfinity : String.ofList ((c :: more).map asciiLower) ≠ "infinity" :=
    hname ['n', 'f', 'i', 'n', 'i', 't', 'y']
  have hunderscore : '_' ∉ c :: more := hplain '_' (by simp)
  have hdecimal : (if underscoresSeparate isDecimalDigit false (c :: more) then
      decimal? negative ((c :: more).filter (· ≠ '_')) else none) =
      decimal? negative (c :: more) := by
    rw [underscoresSeparate_of_not_mem hunderscore, if_pos rfl, List.filter_eq_self.mpr]
    intro x hx
    simp only [decide_eq_true_eq]
    rintro rfl
    exact hunderscore hx
  rw [read?, String.toList_ofList]
  simp only [takeSign_signed hc, hinf, hinfinity, signed_ne_nan hc, decide_false, Bool.or_false,
    Bool.false_eq_true, if_false]
  split
  next mark tail heq =>
    obtain ⟨rfl, rfl⟩ := List.cons.inj heq
    have hmark (x : Char) (hx : x ∉ '0' :: mark :: tail) : mark ≠ x := by
      rintro rfl
      simp at hx
    have hx := hmark 'x' (hplain 'x' (by simp))
    have hx' := hmark 'X' (hplain 'X' (by simp))
    simpa only [hx, hx', decide_false, Bool.or_false, Bool.false_eq_true, if_false] using hdecimal
  next => exact hdecimal

/-- A numeral is read as the number nearest to its decimal. -/
theorem read?_of_denotes {text : List Char} {d : Decimal} (hdenotes : Denotes text d)
    (negative : Bool) :
    read? (String.ofList ((if negative then ['-'] else []) ++ text)) =
      some (marked (ofDecimal negative d.digits d.exponent)) := by
  have hmarks : ∀ x ∈ ['x', 'X', '_'], x.isDigit = false ∧ x ∉ ['.', 'e', 'E', '+', '-'] := by
    simp
  have hplain : ∀ x ∈ ['x', 'X', '_'], x ∉ text := by
    intro x hx hmem
    obtain ⟨hdigit, hmark⟩ := hmarks x hx
    rcases mem_of_denotes hdenotes x hmem with hmem | hmem
    · exact ne_of_isDigit hmem hdigit rfl
    · exact hmark hmem
  rw [← decimal?_of_denotes hdenotes]
  obtain ⟨c, more, rfl, hc⟩ := exists_cons_of_denotes hdenotes
  exact read?_signed hc hplain negative

/-! Every number of JSON is a numeral. -/

theorem exponent?_of_digits {digits : List Char} (hdigits : ∀ c ∈ digits, c.isDigit = true)
    (hne : digits ≠ []) {sign : List Char} (hsign : sign = [] ∨ sign = ['+'] ∨ sign = ['-']) :
    ∃ e, exponent? (sign ++ digits) = some e := by
  have hall : digits.all isDecimalDigit = true := List.all_eq_true.mpr hdigits
  have hempty : digits.isEmpty = false := by simpa using hne
  have htake : (takeSign (sign ++ digits)).2 = digits := by
    rcases hsign with rfl | rfl | rfl
    · cases digits with
      | nil => rfl
      | cons c digits =>
          have hc := hdigits c List.mem_cons_self
          rw [List.nil_append, takeSign]
          · rintro rest ⟨⟩
            cases hc
          · rintro rest ⟨⟩
            cases hc
    · rfl
    · rfl
  simp only [exponent?, htake, hall, hempty]
  exact ⟨_, rfl⟩

theorem exists_power {exponent : List Char} (hexponent : Exponent exponent) :
    ∃ e, Power exponent e := by
  cases hexponent with
  | none => exact ⟨0, .none⟩
  | mark hmark hsign hdigits hne =>
      obtain ⟨e, hread⟩ := exponent?_of_digits hdigits hne hsign
      exact ⟨e, .mark hmark hread⟩

theorem exists_withPoint {fraction : List Char} (hfraction : Fraction fraction)
    (hpoint : fraction ≠ ['.']) :
    ∃ digits, fraction = withPoint digits ∧ ∀ c ∈ digits, c.isDigit = true := by
  cases hfraction with
  | none => exact ⟨[], rfl, nofun⟩
  | @point digits hdigits =>
      refine ⟨digits, ?_, hdigits⟩
      cases digits with
      | nil => exact absurd rfl hpoint
      | cons => rfl

open Json.Syntax (NumberText) in
theorem exists_denotes {text : List Char} (htext : NumberText text) :
    ∃ (negative : Bool) (body : List Char) (d : Decimal),
      text = (if negative then ['-'] else []) ++ body ∧ Denotes body d := by
  cases htext with
  | @mk sign whole fraction exponent hsign hwhole hfraction hpoint hexponent =>
      obtain ⟨digits, rfl, hdigits⟩ := exists_withPoint hfraction hpoint
      obtain ⟨e, hpower⟩ := exists_power hexponent
      have hdenotes := Denotes.mk hwhole hdigits hpower
      rcases hsign with rfl | rfl
      · exact ⟨false, _, _, by simp, hdenotes⟩
      · exact ⟨true, _, _, by simp, hdenotes⟩

/-! Written decimals. -/

theorem ofDigitChars_zeros (k n : Nat) :
    Nat.ofDigitChars 10 (Decimal.zeros k).toList n = n * 10 ^ k := by
  rw [Decimal.zeros, String.toList_ofList, Nat.ofDigitChars_replicate_zero, Nat.mul_comm]

theorem valueOf_append {cs ds : List Char} (hcs : ∀ c ∈ cs, c.isDigit = true)
    (hds : ∀ c ∈ ds, c.isDigit = true) :
    valueOf 10 (cs ++ ds) = Nat.ofDigitChars 10 ds (valueOf 10 cs) := by
  rw [valueOf_ten (List.forall_mem_append.mpr ⟨hcs, hds⟩), Nat.ofDigitChars_append, valueOf_ten hcs]

theorem valueOf_zeros_append (k n : Nat) :
    valueOf 10 ((Decimal.zeros k).toList ++ Nat.toDigits 10 n) = n := by
  rw [valueOf_append (fun c => Decimal.isDigit_of_mem_zeros) fun c => isDigit_of_mem_toDigits,
    valueOf_ten fun c => Decimal.isDigit_of_mem_zeros, ofDigitChars_zeros, Nat.zero_mul,
    Nat.ofDigitChars_ten_toDigits]

theorem denotes_whole {whole : List Char} (hwhole : Whole whole) :
    Denotes whole ⟨valueOf 10 whole, 0⟩ := by
  have hnone : ∀ c ∈ ([] : List Char), c.isDigit = true := nofun
  simpa [withPoint] using Denotes.mk hwhole hnone .none

theorem denotes_fraction {whole fraction : List Char} (hwhole : Whole whole)
    (hfraction : ∀ c ∈ fraction, c.isDigit = true) (hne : fraction ≠ []) :
    Denotes (whole ++ '.' :: fraction) ⟨valueOf 10 (whole ++ fraction), -fraction.length⟩ := by
  simpa [withPoint, hne] using Denotes.mk hwhole hfraction .none

theorem denotes_positional_ofNat (digits k : Nat) :
    ∃ same : Decimal, Denotes (Decimal.positional ⟨digits, .ofNat k⟩).toList same ∧
      same.value = Decimal.value ⟨digits, .ofNat k⟩ := by
  by_cases hzero : digits = 0
  · exact ⟨_, by simpa [Decimal.positional, hzero] using denotes_whole .zero,
      by simp [Decimal.value, hzero, valueOf, digitValue?]⟩
  · have hwhole : Whole (Nat.toDigits 10 digits ++ (Decimal.zeros k).toList) :=
      whole_append_of_ne_zero hzero fun c => Decimal.isDigit_of_mem_zeros
    refine ⟨_, by simpa [Decimal.positional, hzero] using denotes_whole hwhole, ?_⟩
    rw [valueOf_append (fun c => isDigit_of_mem_toDigits) fun c => Decimal.isDigit_of_mem_zeros,
      valueOf_toDigits, ofDigitChars_zeros]
    simp [Decimal.value]

/-- The point stands among the digits, or zeros fill the places up to it. -/
theorem denotes_positional_negSucc (digits k : Nat) :
    Denotes (Decimal.positional ⟨digits, .negSucc k⟩).toList ⟨digits, .negSucc k⟩ := by
  have hdigits : ∀ c ∈ Nat.toDigits 10 digits, c.isDigit = true :=
    fun c => isDigit_of_mem_toDigits
  simp only [Decimal.positional]
  generalize htext : Nat.toDigits 10 digits = text at hdigits ⊢
  split
  next hplaces =>
    have hne : digits ≠ 0 := by
      rintro rfl
      simp [← htext] at hplaces
    have hcut : 0 < text.length - (k + 1) := by omega
    have hwhole := whole_take_toDigits hne hcut
    rw [htext] at hwhole
    have hdenotes := denotes_fraction hwhole
      (fun c hc => hdigits c (List.mem_of_mem_drop (i := text.length - (k + 1)) hc))
      (by simp; omega)
    rw [List.take_append_drop, List.length_drop, ← htext, valueOf_toDigits, htext,
      show -((text.length - (text.length - (k + 1)) : ℕ) : ℤ) = .negSucc k by omega] at hdenotes
    simpa using hdenotes
  next hplaces =>
    have hfraction : ∀ c ∈ (Decimal.zeros (k + 1 - text.length)).toList ++ text,
        c.isDigit = true :=
      List.forall_mem_append.mpr ⟨fun c => Decimal.isDigit_of_mem_zeros, hdigits⟩
    have hdenotes := denotes_fraction .zero hfraction (by simp [← htext])
    have hvalue : valueOf 10 (['0'] ++ ((Decimal.zeros (k + 1 - text.length)).toList ++ text)) =
        digits := by
      rw [← htext]
      simpa [Decimal.zeros, List.replicate_succ] using
        valueOf_zeros_append (k + 1 - (Nat.toDigits 10 digits).length + 1) digits
    have hlength : ((Decimal.zeros (k + 1 - text.length)).toList ++ text).length = k + 1 := by
      rw [List.length_append, Decimal.zeros, String.toList_ofList, List.length_replicate]
      omega
    rw [hvalue, hlength] at hdenotes
    simpa [Int.negSucc_eq] using hdenotes

/-- Positional notation denotes the decimal, with digits for all places before the point. -/
theorem denotes_positional (d : Decimal) :
    ∃ same : Decimal, Denotes d.positional.toList same ∧ same.value = d.value := by
  obtain ⟨digits, exponent⟩ := d
  cases exponent with
  | ofNat k => exact denotes_positional_ofNat digits k
  | negSucc k => exact ⟨_, denotes_positional_negSucc digits k, rfl⟩

theorem exponent?_exponentDigits (width n : Nat) (negative : Bool) :
    exponent? ((if negative then '-' else '+') :: (Decimal.exponentDigits width n).toList) =
      some (if negative then -(n : Int) else n) := by
  have htext : (Decimal.exponentDigits width n).toList =
      (Decimal.zeros (width - (Nat.toDigits 10 n).length)).toList ++ Nat.toDigits 10 n := by
    simp [Decimal.exponentDigits]
  have hdigits : (Decimal.exponentDigits width n).toList.all isDecimalDigit = true := by
    rw [htext, List.all_eq_true]
    exact List.forall_mem_append.mpr ⟨fun c => Decimal.isDigit_of_mem_zeros,
      fun c => isDigit_of_mem_toDigits⟩
  have hne : (Decimal.exponentDigits width n).toList.isEmpty = false := by
    rw [htext]
    simp
  have hvalue : valueOf 10 (Decimal.exponentDigits width n).toList = n := by
    rw [htext, valueOf_zeros_append]
  cases negative <;> simp [exponent?, takeSign, hdigits, hne, hvalue]

theorem power_exponentDigits (width : Nat) (order : Int) :
    Power ((if order < 0 then "e-" else "e+").toList ++
      (Decimal.exponentDigits width order.natAbs).toList) order := by
  have hread := exponent?_exponentDigits width order.natAbs (decide (order < 0))
  simp only [decide_eq_true_eq] at hread
  split
  next hneg =>
    refine .mark (.inl rfl) ?_
    simp only [hneg, if_true] at hread
    rwa [show -(order.natAbs : Int) = order by omega] at hread
  next hnonneg =>
    refine .mark (.inl rfl) ?_
    simp only [hnonneg, if_false] at hread
    rwa [show (order.natAbs : Int) = order by omega] at hread

theorem denotes_scientific (d : Decimal) (width : Nat) :
    Denotes (d.scientific width).toList d := by
  have hpower := power_exponentDigits width d.order
  have hvalue := valueOf_toDigits d.digits
  have horder : d.order = (Nat.toDigits 10 d.digits).length + d.exponent - 1 := rfl
  have hdigits : ∀ c ∈ Nat.toDigits 10 d.digits, c.isDigit = true :=
    fun c => isDigit_of_mem_toDigits
  rw [Decimal.scientific]
  cases htext : Nat.toDigits 10 d.digits with
  | nil => exact absurd htext Nat.toDigits_ne_nil
  | cons c rest =>
      rw [htext] at hvalue horder hdigits
      have hexponent : d.order - rest.length = d.exponent := by
        rw [horder, List.length_cons]
        push_cast
        ring
      have hdenotes := Denotes.mk (whole_of_toDigits_cons htext) (List.forall_mem_cons.mp hdigits).2
        hpower
      rw [show [c] ++ rest = c :: rest from rfl, hvalue, hexponent] at hdenotes
      cases rest with
      | nil => simpa [withPoint] using hdenotes
      | cons next rest => simpa [withPoint] using hdenotes

theorem special_of_isFinite {x : Number} (hfinite : x.isFinite = true) :
    x.isNaN = false ∧ x.isInfinite = false := by
  rw [isFinite, decide_eq_true_iff] at hfinite
  have hfield : decide (x.exponentField = 2047) = false := decide_eq_false (by omega)
  exact ⟨by rw [isNaN, hfield, Bool.false_and], by rw [isInfinite, hfield, Bool.false_and]⟩

/-- A finite number is read from the text that JSON has for it. -/
theorem numberOf_jsonForm {x : Number} (hfinite : x.isFinite = true) :
    Json.Term.numberOf x.jsonForm = x := by
  obtain ⟨hnan, hinfinite⟩ := special_of_isFinite hfinite
  obtain ⟨same, hdenotes, hvalue⟩ : ∃ same : Decimal,
      Denotes (if x.isPlain then x.shortest.positional else x.shortest.scientific 1).toList same ∧
        same.value = x.shortest.value := by
    split
    · exact denotes_positional x.shortest
    · exact ⟨_, denotes_scientific x.shortest 1, rfl⟩
  have hread := read?_of_denotes hdenotes x.signbit
  have htext : x.jsonForm = String.ofList ((if x.signbit then ['-'] else []) ++
      (if x.isPlain then x.shortest.positional else x.shortest.scientific 1).toList) := by
    rw [jsonForm, layOut, hnan, hinfinite, if_neg Bool.false_ne_true, if_neg Bool.false_ne_true]
    cases x.signbit <;> simp
  rw [Json.Term.numberOf, htext, hread]
  exact ofDecimal_of_value hfinite hvalue

end Number

end ScriptTree
