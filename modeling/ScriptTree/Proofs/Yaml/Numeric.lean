import ScriptTree.Proofs.Json.Writer
import ScriptTree.Proofs.Number.Numeral
import ScriptTree.Proofs.Yaml.Outline
import ScriptTree.Yaml.Scalar

/-!
Plain scalars that are numbers. An integer of one word stays an integer, and every other number
is the double that is nearest to it.
-/

namespace ScriptTree

open Js.Syntax (Whole Fraction Exponent)
open Json.Syntax (NumberText SharedNumber)

namespace Number

/-! Integers. -/

theorem digitChar_toNat {c : Char} (hc : c.isDigit = true) : (c.toNat - 48).digitChar = c := by
  have hbounds : 48 ≤ c.toNat ∧ c.toNat ≤ 57 := Char.isDigit_iff_toNat.mp hc
  have hchars : ∀ n < 10, n.digitChar = Char.ofNat (48 + n) := by decide
  rw [hchars _ (by omega), Nat.add_sub_cancel' hbounds.1, Char.ofNat_toNat]

/-- Digits behind a number that is not zero are the digits of a greater number. -/
theorem toDigits_append {n : Nat} (hn : 0 < n) {digits : List Char}
    (hdigits : ∀ c ∈ digits, c.isDigit = true) :
    ∃ m, Nat.toDigits 10 n ++ digits = Nat.toDigits 10 m := by
  induction digits generalizing n with
  | nil => exact ⟨n, List.append_nil _⟩
  | cons c digits ih =>
      obtain ⟨hc, hmore⟩ := List.forall_mem_cons.mp hdigits
      have hbounds : 48 ≤ c.toNat ∧ c.toNat ≤ 57 := Char.isDigit_iff_toNat.mp hc
      have hlt : c.toNat - 48 < 10 := by omega
      have hstep := Nat.toDigits_append_toDigits (b := 10) (by decide) hn hlt
      rw [Nat.toDigits_of_lt_base hlt, digitChar_toNat hc] at hstep
      obtain ⟨m, heq⟩ := ih (show 0 < 10 * n + (c.toNat - 48) by omega) hmore
      exact ⟨m, by rw [← heq, ← hstep]; simp⟩

theorem exists_toDigits {whole : List Char} (hwhole : Whole whole) :
    ∃ n, whole = Nat.toDigits 10 n := by
  cases hwhole with
  | zero => exact ⟨0, rfl⟩
  | @positive c digits hdigit hne hdigits =>
      have hbounds : 48 ≤ c.toNat ∧ c.toNat ≤ 57 := Char.isDigit_iff_toNat.mp hdigit
      have hpos : 0 < c.toNat - 48 := by
        apply Nat.pos_of_ne_zero
        intro hzero
        have hchar := digitChar_toNat hdigit
        rw [hzero] at hchar
        exact hne hchar.symm
      obtain ⟨m, heq⟩ := toDigits_append hpos hdigits
      rw [Nat.toDigits_of_lt_base (by omega), digitChar_toNat hdigit] at heq
      exact ⟨m, heq⟩

theorem baseOf_toDigits (n : Nat) : baseOf (Nat.toDigits 10 n) = (10, Nat.toDigits 10 n) := by
  by_cases hzero : n = 0
  · rw [hzero]
    rfl
  · obtain ⟨c, digits, hdigits, hne⟩ := exists_toDigits_cons hzero
    rw [hdigits, baseOf]
    rintro mark rest ⟨⟩
    exact hne rfl

theorem magnitude?_of_digits {cs : List Char} (hne : cs ≠ []) (hcs : ∀ c ∈ cs, c.isDigit = true) :
    magnitude? 10 cs = some (valueOf 10 cs) := by
  have hall : cs.all (isDigitOf 10) = true :=
    List.all_eq_true.mpr fun c hc => (isDigitOf_ten c).trans (hcs c hc)
  simp [magnitude?, hne, hall]

theorem natural?_toDigits (n : Nat) : natural? (Nat.toDigits 10 n) = some n := by
  have hdigits : ∀ c ∈ Nat.toDigits 10 n, c.isDigit = true := fun c => isDigit_of_mem_toDigits
  have hunderscore : (Nat.toDigits 10 n).contains '_' = false := by
    rw [← Bool.not_eq_true, List.contains_iff_mem]
    intro hmem
    cases hdigits '_' hmem
  rw [natural?, baseOf_toDigits]
  simp only [hunderscore, Bool.false_eq_true, if_false]
  rw [magnitude?_of_digits Nat.toDigits_ne_nil hdigits, valueOf_toDigits]

/-- Characters that a number holds beside its digits. -/
def marks : List Char := ['.', 'e', 'E', '+', '-']

theorem isDigitOf_mark {c : Char} (hc : c ∈ marks) {base : Nat} (hbase : base ≤ 10) :
    isDigitOf base c = false := by
  have hvalue : digitValue? c = none ∨ digitValue? c = some 14 := by
    simp only [marks, List.mem_cons, List.not_mem_nil, or_false] at hc
    rcases hc with rfl | rfl | rfl | rfl | rfl
    · exact .inl rfl
    · exact .inr rfl
    · exact .inr rfl
    · exact .inl rfl
    · exact .inl rfl
  rw [isDigitOf]
  rcases hvalue with hvalue | hvalue
  · rw [hvalue]
  · rw [hvalue]
    exact decide_eq_false (by omega)

theorem natural?_of_mark {cs : List Char} (hcs : ∀ c ∈ cs, c.isDigit = true ∨ c ∈ marks)
    (hmark : ∃ c ∈ cs, c ∈ marks) : natural? cs = none := by
  have hnot (x : Char) (hx : x.isDigit = false) (hx' : x ∉ marks) : x ∉ cs := by
    intro hmem
    rcases hcs x hmem with h | h
    · rw [hx] at h
      cases h
    · exact hx' h
  obtain ⟨c, hmem, hc⟩ := hmark
  obtain ⟨base, digits, hbase, hle, hmem'⟩ : ∃ base digits, baseOf cs = (base, digits) ∧
      base ≤ 10 ∧ c ∈ digits := by
    unfold baseOf
    split
    next mark rest =>
      have hne (x : Char) (hx : x.isDigit = false) (hx' : x ∉ marks) : mark ≠ x := by
        rintro rfl
        exact hnot mark hx hx' (by simp)
      have hzero : c ≠ '0' := by
        rintro rfl
        exact absurd hc (by decide)
      refine ⟨8, mark :: rest, ?_, by decide, (List.mem_cons.mp hmem).resolve_left hzero⟩
      simp [hne 'x' rfl (by decide), hne 'X' rfl (by decide), hne 'b' rfl (by decide),
        hne 'B' rfl (by decide), hne 'o' rfl (by decide), hne 'O' rfl (by decide)]
    next => exact ⟨10, cs, rfl, Nat.le_refl _, hmem⟩
  have hunderscore : cs.contains '_' = false := by
    rw [← Bool.not_eq_true, List.contains_iff_mem]
    exact hnot '_' rfl (by decide)
  have hall : digits.all (isDigitOf base) = false := by
    rw [← Bool.not_eq_true, List.all_eq_true]
    intro h
    have hdigit := h c hmem'
    rw [isDigitOf_mark hc hle] at hdigit
    cases hdigit
  rw [natural?, hbase]
  simp only [hunderscore, Bool.false_eq_true, if_false, magnitude?, hall, Bool.not_false,
    Bool.or_true, if_true]

end Number

namespace Text

theorem integer_eq (n : Int) :
    (integer n).toList = (if n < 0 then ['-'] else []) ++ Nat.toDigits 10 n.natAbs := by
  rw [integer]
  split <;> simp [Nat.repr_eq_ofList_toDigits]

end Text

namespace Number

theorem takeSign_integer (n : Int) :
    takeSign (Text.integer n).toList = (decide (n < 0), Nat.toDigits 10 n.natAbs) := by
  rw [Text.integer_eq]
  split
  next hneg => simp [takeSign, hneg]
  next hnonneg =>
    rw [decide_eq_false hnonneg, List.nil_append]
    cases hdigits : Nat.toDigits 10 n.natAbs with
    | nil => rfl
    | cons c digits =>
        have hc : c.isDigit = true := isDigit_of_mem_toDigits (n := n.natAbs) (by simp [hdigits])
        rw [takeSign]
        · rintro rest ⟨⟩
          cases hc
        · rintro rest ⟨⟩
          cases hc

theorem signed_integer (n : Int) :
    signed 64 (Text.integer n) =
      if n < 0 then
        if n.natAbs ≤ 2 ^ 63 then .ok (-(n.natAbs : Int)) else .error (.outOfRange (-2 ^ 63))
      else if n.natAbs < 2 ^ 63 then .ok n.natAbs
      else .error (.outOfRange (2 ^ 63 - 1)) := by
  rw [signed, takeSign_integer]
  simp only [natural?_toDigits, decide_eq_true_eq]
  rfl

theorem unsigned_integer (n : Int) :
    unsigned 64 (Text.integer n) =
      if n < 0 then .error .malformed
      else if n.natAbs < 2 ^ 64 then .ok n.natAbs
      else .error (.outOfRange (2 ^ 64 - 1)) := by
  rw [unsigned, Text.integer_eq]
  by_cases hneg : n < 0
  · have hnone : natural? ('-' :: Nat.toDigits 10 n.natAbs) = none := by
      refine natural?_of_mark (List.forall_mem_cons.mpr ⟨.inr (by decide), fun c hc => ?_⟩)
        ⟨'-', List.mem_cons_self, by decide⟩
      exact .inl (isDigit_of_mem_toDigits hc)
    rw [if_pos hneg, if_pos hneg, List.singleton_append, hnone]
  · rw [if_neg hneg, if_neg hneg, List.nil_append, natural?_toDigits]
    rfl

end Number

namespace Yaml.Scalar

open Number

/-- Integers of one word are read as they are. -/
theorem int?_integer (n : Int) :
    int? (Text.integer n) = if -2 ^ 63 ≤ n ∧ n < 2 ^ 64 then some (.int n) else none := by
  rw [int?, signed_integer, unsigned_integer]
  by_cases hneg : n < 0
  · have habs : -(n.natAbs : Int) = n := by omega
    have hiff : n.natAbs ≤ 2 ^ 63 ↔ -2 ^ 63 ≤ n ∧ n < 2 ^ 64 := by omega
    rw [← if_congr hiff rfl rfl]
    by_cases hfits : n.natAbs ≤ 2 ^ 63
    · simp only [if_pos hneg, if_pos hfits, habs]
    · simp only [if_pos hneg, if_neg hfits]
  · have habs : (n.natAbs : Int) = n := by omega
    have hiff : n.natAbs < 2 ^ 64 ↔ -2 ^ 63 ≤ n ∧ n < 2 ^ 64 := by omega
    rw [← if_congr hiff rfl rfl]
    by_cases hsigned : n.natAbs < 2 ^ 63
    · have hfits : n.natAbs < 2 ^ 64 := by omega
      simp only [if_neg hneg, if_pos hsigned, if_pos hfits, habs]
    · by_cases hfits : n.natAbs < 2 ^ 64
      · simp only [if_neg hneg, if_neg hsigned, if_pos hfits, habs]
      · simp only [if_neg hneg, if_neg hsigned, if_neg hfits]

/-! Other scalars that a number is not. -/

/-- A word is empty or holds a character that no number has. -/
theorem word?_of_numberText {text : List Char} (htext : NumberText text) :
    word? (String.ofList text) = none := by
  have hne : text ≠ [] := by
    obtain ⟨negative, body, d, rfl, hdenotes⟩ := exists_denotes htext
    obtain ⟨c, more, rfl, -⟩ := exists_cons_of_denotes hdenotes
    simp
  have hnot (words : List String)
      (hwords : ∀ w ∈ words, w.toList = [] ∨ ∃ x ∈ w.toList, x.isDigit = false ∧ x ∉ marks) :
      words.contains (String.ofList text) = false := by
    rw [← Bool.not_eq_true, List.contains_iff_mem]
    intro hmem
    rcases hwords _ hmem with hempty | ⟨x, hx, hdigit, hmark⟩
    · rw [String.toList_ofList] at hempty
      exact hne hempty
    · rw [String.toList_ofList] at hx
      rcases mem_numberText htext hx with h | h
      · rw [hdigit] at h
        cases h
      · exact hmark h
  rw [word?, hnot, hnot, hnot, hnot, hnot, hnot]
  · rfl
  all_goals simp [marks]

/-- What stands behind the first digits of a numeral. -/
theorem head_dropWhile_of_denotes {body : List Char} {d : Decimal} (hdenotes : Denotes body d) :
    ∀ c ∈ (body.dropWhile (isDigitOf 10)).head?, c ∈ marks ∧ c ≠ '-' := by
  obtain ⟨hwhole, hfraction, hpower⟩ := hdenotes
  rename_i whole fraction power e
  have hhead : ∀ c ∈ (withPoint fraction ++ power).head?, c = '.' ∨ c = 'e' ∨ c = 'E' := by
    cases fraction with
    | nil => exact fun c hc => .inr (head_of_power hpower c hc)
    | cons => rintro c ⟨⟩; exact .inl rfl
  have hmark : ∀ c ∈ (withPoint fraction ++ power).head?,
      c.isDigit = false ∧ c ∈ marks ∧ c ≠ '-' := by
    intro c hc
    rcases hhead c hc with rfl | rfl | rfl <;> decide
  rw [(span_digits (isDigit_of_whole hwhole) fun c hc => (hmark c hc).1).2]
  exact fun c hc => (hmark c hc).2

/-- A date has a line behind its year. -/
theorem exists_year_of_date? {cs rest : List Char} {t : Timestamp}
    (hdate : Timestamp.date? cs = some (t, rest)) :
    ∃ year tail, cs = year ++ '-' :: tail ∧ year ≠ [] ∧ ∀ c ∈ year, isDigitOf 10 c = true := by
  rw [Timestamp.date?] at hdate
  split at hdate
  next => cases hdate
  next hyear =>
    simp only [Bool.or_eq_true, decide_eq_true_eq, Bool.not_eq_true', not_or, Nat.not_lt,
      Bool.not_eq_false] at hyear
    obtain ⟨hlength, hdigits⟩ := hyear
    obtain ⟨tail, hexpect, -⟩ := Option.bind_eq_some_iff.mp hdate
    have hdrop : cs.drop 4 = '-' :: tail := by
      unfold Timestamp.expect at hexpect
      split at hexpect
      next x more _ =>
        split at hexpect
        next hx =>
          obtain rfl := Option.some.inj hexpect
          simp_all
        next => cases hexpect
      next => cases hexpect
    refine ⟨cs.take 4, tail, ?_, ?_, ?_⟩
    · rw [← hdrop, List.take_append_drop]
    · intro hnil
      rw [hnil] at hlength
      cases hlength
    · intro c hc
      rw [isDigitOf_ten]
      exact List.all_eq_true.mp hdigits c hc

theorem read?_timestamp_of_numberText {text : List Char} (htext : NumberText text) :
    Timestamp.read? (String.ofList text) = none := by
  have hdate : Timestamp.date? text = none := by
    cases hdate : Timestamp.date? text with
    | none => rfl
    | some date =>
        obtain ⟨year, tail, hyear, hne, hdigits⟩ := exists_year_of_date? hdate
        obtain ⟨negative, body, d, rfl, hdenotes⟩ := exists_denotes htext
        cases negative with
        | true =>
            cases year with
            | nil => exact absurd rfl hne
            | cons c year =>
                obtain ⟨rfl, -⟩ := List.cons.inj hyear
                cases hdigits '-' List.mem_cons_self
        | false =>
            rw [if_neg Bool.false_ne_true, List.nil_append] at hyear
            have hhead := head_dropWhile_of_denotes hdenotes '-'
            rw [hyear, List.dropWhile_append_of_pos hdigits, List.dropWhile_cons_of_neg (by decide)]
              at hhead
            exact absurd rfl (hhead rfl).2
  rw [Timestamp.read?, String.toList_ofList, hdate]
  rfl

theorem bare_of_numberText {text : List Char} (htext : NumberText text) :
    text.filter (· ≠ '_') = text := by
  rw [List.filter_eq_self]
  intro c hc
  rw [decide_eq_true_eq]
  rintro rfl
  rcases mem_numberText htext hc with h | h
  · cases h
  · exact absurd h (by decide)

/-! Numbers as doubles. -/

theorem isFloatText_eq (text : String) :
    isFloatText text =
      ((!(takeMantissa 10 (takeSign text.toList).2).1.isEmpty ||
          !(takeMantissa 10 (takeSign text.toList).2).2.1.isEmpty) &&
        match (takeMantissa 10 (takeSign text.toList).2).2.2 with
        | [] => true
        | mark :: tail => (mark = 'e' || mark = 'E') && (exponent? tail).isSome) := by
  have hdigit : isDecimalDigit = isDigitOf 10 := (funext isDigitOf_ten).symm
  rw [isFloatText, hdigit, takeMantissa]
  cases hrest : (takeSign text.toList).2.dropWhile (isDigitOf 10) with
  | nil => rfl
  | cons c tail =>
      by_cases hpoint : c = '.'
      · rw [hpoint]
        rfl
      · simp [hpoint]

theorem takeSign_of_denotes {body : List Char} {d : Decimal} (hdenotes : Denotes body d)
    (negative : Bool) : takeSign ((if negative then ['-'] else []) ++ body) = (negative, body) := by
  obtain ⟨c, more, rfl, hc⟩ := exists_cons_of_denotes hdenotes
  cases negative with
  | true => rfl
  | false =>
      rw [if_neg Bool.false_ne_true, List.nil_append, takeSign]
      · rintro rest ⟨⟩
        cases hc
      · rintro rest ⟨⟩
        cases hc

theorem isFloatText_of_numberText {text : List Char} (htext : NumberText text) :
    isFloatText (String.ofList text) = true := by
  obtain ⟨negative, body, d, rfl, hdenotes⟩ := exists_denotes htext
  have hsign := takeSign_of_denotes hdenotes negative
  obtain ⟨hwhole, hfraction, hpower⟩ := hdenotes
  rw [isFloatText_eq, String.toList_ofList, hsign, takeMantissa_of_parts hwhole hfraction hpower]
  have hempty : ∀ {whole : List Char}, Whole whole → whole.isEmpty = false := by
    rintro _ (_ | _) <;> rfl
  rw [hempty hwhole]
  cases hpower with
  | none => rfl
  | mark hmark hread =>
      simp only [hread]
      rcases hmark with rfl | rfl <;> rfl

theorem float?_of_sharedNumber {text : List Char} (htext : SharedNumber text) :
    float? (String.ofList text) = some (.float (Json.Term.numberOf (String.ofList text))) := by
  obtain ⟨negative, body, d, rfl, hdenotes⟩ := exists_denotes htext.number
  have hread := read?_of_denotes hdenotes negative
  have hfinite := htext.finite
  rw [Json.Term.numberOf, hread] at hfinite
  have hinfinite : (ofDecimal negative d.digits d.exponent).isInfinite = false :=
    (special_of_isFinite hfinite).2
  rw [float?, Json.Term.numberOf, hread]
  simp only [marked, hinfinite, Bool.false_eq_true, if_false]

/-! What a number is read as. -/

/-- A number without a point and without an exponent is an integer. -/
theorem integer_or_mark {text : List Char} (htext : NumberText text)
    (hunsigned : text ≠ ['-', '0']) :
    (∃ n, String.ofList text = Text.integer n) ∨ ∃ c ∈ (takeSign text).2, c ∈ marks := by
  obtain ⟨negative, body, d, rfl, hdenotes⟩ := exists_denotes htext
  rw [takeSign_of_denotes hdenotes]
  obtain ⟨hwhole, hfraction, hpower⟩ := hdenotes
  cases hpower with
  | mark hmark hread =>
      refine .inr ⟨_, List.mem_append_right _ (List.mem_append_right _ List.mem_cons_self), ?_⟩
      rcases hmark with rfl | rfl <;> decide
  | none =>
      rename_i whole fraction
      cases fraction with
      | cons c fraction =>
          refine .inr ⟨'.', List.mem_append_right _ (List.mem_append_left _ ?_), by decide⟩
          exact List.mem_cons_self
      | nil =>
          obtain ⟨n, rfl⟩ := exists_toDigits hwhole
          refine .inl ⟨if negative then -n else n, String.toList_injective ?_⟩
          rw [String.toList_ofList, Text.integer_eq]
          cases negative with
          | false => simp [withPoint]
          | true =>
              have hpos : n ≠ 0 := by
                rintro rfl
                exact hunsigned rfl
              simp [withPoint, Nat.pos_of_ne_zero hpos]

theorem int?_of_mark {text : List Char} (htext : NumberText text)
    (hmark : ∃ c ∈ (takeSign text).2, c ∈ marks) : int? (String.ofList text) = none := by
  have hchars : ∀ c ∈ text, c.isDigit = true ∨ c ∈ marks := fun c => mem_numberText htext
  obtain ⟨negative, body, d, rfl, hdenotes⟩ := exists_denotes htext
  rw [takeSign_of_denotes hdenotes] at hmark
  have hbody : natural? body = none :=
    natural?_of_mark (fun c hc => hchars c (List.mem_append_right _ hc)) hmark
  have hwhole := natural?_of_mark hchars (hmark.imp fun c h => ⟨List.mem_append_right _ h.1, h.2⟩)
  rw [int?, signed, unsigned, String.toList_ofList, takeSign_of_denotes hdenotes]
  simp only [hbody, hwhole]

/-- An integer of one word is itself, any other number a double. -/
inductive Resolves : List Char → Scalar → Prop
  | word {n : Int} (hlow : -2 ^ 63 ≤ n) (hhigh : n < 2 ^ 64) :
      Resolves (Text.integer n).toList (.int n)
  | double {text : List Char}
      (hword : ∀ n : Int, -2 ^ 63 ≤ n → n < 2 ^ 64 → String.ofList text ≠ Text.integer n) :
      Resolves text (.float (Json.Term.numberOf (String.ofList text)))

theorem Resolves.not_foreign {text : List Char} {x : Scalar} (hresolves : Resolves text x)
    (tag : Tag) (other : String) : x ≠ .foreign tag other := by
  cases hresolves <;> exact nofun

/-- A number of JSON is an integer if it can be read as one, and else its double. -/
theorem ofPlain_of_sharedNumber {text : List Char} (htext : SharedNumber text) :
    ofPlain true (String.ofList text) =
      (int? (String.ofList text)).getD (.float (Json.Term.numberOf (String.ofList text))) := by
  obtain ⟨c, more, hcons, hc⟩ :
      ∃ c more, text = c :: more ∧ (isDecimalDigit c = true ∨ c = '-') := by
    obtain ⟨negative, body, d, rfl, hdenotes⟩ := exists_denotes htext.number
    obtain ⟨c, more, rfl, hc⟩ := exists_cons_of_denotes hdenotes
    cases negative with
    | true => exact ⟨'-', _, rfl, .inr rfl⟩
    | false => exact ⟨c, more, rfl, .inl hc⟩
  have hpoint : c ≠ '.' := by
    rintro rfl
    rcases hc with h | h <;> cases h
  have hstarts : (isDecimalDigit c || c = '+' || c = '-') = true := by
    rcases hc with h | rfl
    · simp [h]
    · rfl
  have hnumeric : numeric? true (String.ofList text) =
      (int? (String.ofList text)).or
        (some (.float (Json.Term.numberOf (String.ofList text)))) := by
    rw [numeric?, String.toList_ofList, bare_of_numberText htext.number,
      read?_timestamp_of_numberText htext.number, isFloatText_of_numberText htext.number,
      float?_of_sharedNumber htext]
    cases int? (String.ofList text) <;> rfl
  rw [ofPlain, word?_of_numberText htext.number, hnumeric, String.toList_ofList, hcons]
  simp only [List.head?_cons, hpoint, hstarts, if_true, if_false]
  cases int? (String.ofList (c :: more)) <;> rfl

theorem resolves_of_sharedNumber {text : List Char} (htext : SharedNumber text) :
    Resolves text (ofPlain true (String.ofList text)) := by
  rw [ofPlain_of_sharedNumber htext]
  cases hint : int? (String.ofList text) with
  | none =>
      refine .double fun n hlow hhigh hn => ?_
      rw [hn, int?_integer, if_pos ⟨hlow, hhigh⟩] at hint
      cases hint
  | some s =>
      rcases integer_or_mark htext.number htext.unsigned with ⟨n, hn⟩ | hmark
      · rw [hn, int?_integer] at hint
        split at hint
        next hword =>
          obtain rfl := Option.some.inj hint
          have hdigits : text = (Text.integer n).toList := by rw [← hn, String.toList_ofList]
          rw [hdigits]
          exact .word hword.1 hword.2
        next => cases hint
      · rw [int?_of_mark htext.number hmark] at hint
        cases hint

end Yaml.Scalar

end ScriptTree
