import ScriptTree.Js.Expr
import ScriptTree.Text.IdentifierChar
import ScriptTree.Text.Lines

/-!
The terminal symbols of expressions and how a text is taken apart into them: the
longest word, the longest decimal literal or a mark of punctuation at a time, with
white space in between.
-/

namespace ScriptTree.Js.Syntax

inductive Terminal where
  /-- A name or a keyword. -/
  | word (text : String)
  | decimal (text : String)
  | operator (op : Operator)
  | minus
  | slash
  | openParen
  | closeParen
  | openBrace
  | closeBrace
  | comma
  | semicolon
  /-- A character that starts no symbol, or a number that touches a word. -/
  | stray (c : Char)
deriving DecidableEq, Inhabited

def isSpace (c : Char) : Bool :=
  (Text.isBlank c && c.toNat ≠ 0x85) || c.toNat = 0xFEFF

def isLineBreak (c : Char) : Bool :=
  c = '\n' || c = '\r' || c.toNat = 0x2028 || c.toNat = 0x2029

/-! Scanning one symbol, given its first character and what follows; the result is
followed by what is left. -/

def scanWord (c : Char) (rest : List Char) : Terminal × List Char :=
  (.word (String.ofList (c :: rest.takeWhile Text.isIdentifierPart)),
    rest.dropWhile Text.isIdentifierPart)

/-- The digits of a whole number after its first one; nothing follows a zero. -/
def scanWhole (c : Char) (rest : List Char) : List Char × List Char :=
  if c = '0' then ([], rest) else (rest.takeWhile Char.isDigit, rest.dropWhile Char.isDigit)

def scanFraction : List Char → List Char × List Char
  | '.' :: rest => ('.' :: rest.takeWhile Char.isDigit, rest.dropWhile Char.isDigit)
  | rest => ([], rest)

def scanSign : List Char → List Char × List Char
  | '+' :: rest => (['+'], rest)
  | '-' :: rest => (['-'], rest)
  | rest => ([], rest)

def scanExponent : List Char → List Char × List Char
  | [] => ([], [])
  | c :: rest =>
    let (sign, more) := scanSign rest
    let digits := more.takeWhile Char.isDigit
    if (c = 'e' || c = 'E') && !digits.isEmpty then
      (c :: (sign ++ digits), more.dropWhile Char.isDigit)
    else ([], c :: rest)

/-- A decimal literal; neither a digit nor a word may follow it directly. -/
def scanDecimal (c : Char) (rest : List Char) : Terminal × List Char :=
  let (whole, rest) := scanWhole c rest
  let (fraction, rest) := scanFraction rest
  let (exponent, rest) := scanExponent rest
  match rest with
  | next :: _ =>
    if Text.isIdentifierPart next then (.stray next, rest)
    else (.decimal (String.ofList (c :: whole ++ fraction ++ exponent)), rest)
  | [] => (.decimal (String.ofList (c :: whole ++ fraction ++ exponent)), rest)

def punctuation? : Char → Option Terminal
  | '+' => some (.operator .add)
  | '-' => some .minus
  | '/' => some .slash
  | '(' => some .openParen
  | ')' => some .closeParen
  | '\x7b' => some .openBrace
  | '\x7d' => some .closeBrace
  | ',' => some .comma
  | ';' => some .semicolon
  | _ => none

def doubled? : Char → Option Terminal
  | '&' => some (.operator .and)
  | '|' => some (.operator .or)
  | '=' => some (.operator .equal)
  | _ => none

def scanMark (c : Char) (rest : List Char) : Terminal × List Char :=
  match punctuation? c, doubled? c, rest with
  | some t, _, _ => (t, rest)
  | none, some t, d :: more => if d = c then (t, more) else (.stray c, rest)
  | _, _, _ => (.stray c, rest)

def scan (c : Char) (rest : List Char) : Terminal × List Char :=
  if Text.isIdentifierStart c then scanWord c rest
  else if c.isDigit then scanDecimal c rest
  else scanMark c rest

theorem length_dropWhile_le (p : Char → Bool) (cs : List Char) :
    (cs.dropWhile p).length ≤ cs.length :=
  (List.dropWhile_suffix p).length_le

theorem length_scanDecimal_le (c : Char) (rest : List Char) :
    (scanDecimal c rest).2.length ≤ rest.length := by
  have hwhole : (scanWhole c rest).2.length ≤ rest.length := by
    unfold scanWhole
    split
    · exact Nat.le_refl _
    · exact length_dropWhile_le _ _
  have hfraction : ∀ cs, (scanFraction cs).2.length ≤ cs.length := by
    intro cs
    unfold scanFraction
    split
    · exact Nat.le_succ_of_le (length_dropWhile_le _ _)
    · exact Nat.le_refl _
  have hsign : ∀ cs, (scanSign cs).2.length ≤ cs.length := by
    intro cs
    unfold scanSign
    split <;> simp
  have hexponent : ∀ cs, (scanExponent cs).2.length ≤ cs.length := by
    intro cs
    cases cs with
    | nil => exact Nat.le_refl _
    | cons d more =>
        simp only [scanExponent]
        split
        · exact Nat.le_succ_of_le (Nat.le_trans (length_dropWhile_le _ _) (hsign more))
        · exact Nat.le_refl _
  have hscan : (scanDecimal c rest).2 =
      (scanExponent (scanFraction (scanWhole c rest).2).2).2 := by
    simp only [scanDecimal]
    split
    · split <;> simp_all
    · simp_all
  rw [hscan]
  exact Nat.le_trans (hexponent _) (Nat.le_trans (hfraction _) hwhole)

theorem length_scan_le (c : Char) (rest : List Char) :
    (scan c rest).2.length ≤ rest.length := by
  unfold scan
  split
  · exact length_dropWhile_le _ _
  · split
    · exact length_scanDecimal_le c rest
    · unfold scanMark
      split
      · exact Nat.le_refl _
      · split
        · exact Nat.le_succ _
        · exact Nat.le_refl _
      · exact Nat.le_refl _

/-- The symbols of a text. A line that ends right after `return` ends the statement. -/
def scanAll (afterReturn : Bool) : List Char → List Terminal
  | [] => []
  | c :: rest =>
    if isSpace c then
      if afterReturn && isLineBreak c then .semicolon :: scanAll false rest
      else scanAll afterReturn rest
    else
      (scan c rest).1 :: scanAll ((scan c rest).1 = .word "return") (scan c rest).2
termination_by cs => cs.length
decreasing_by
  all_goals simp only [List.length_cons]
  · omega
  · omega
  · have := length_scan_le c rest
    omega

/-! The shape of decimal literals. -/

inductive Whole : List Char → Prop
  | zero : Whole ['0']
  | positive {c : Char} {digits : List Char} (hdigit : c.isDigit = true) (hne : c ≠ '0')
      (hdigits : ∀ d ∈ digits, d.isDigit = true) : Whole (c :: digits)

inductive Fraction : List Char → Prop
  | none : Fraction []
  | point {digits : List Char} (hdigits : ∀ d ∈ digits, d.isDigit = true) :
      Fraction ('.' :: digits)

inductive Exponent : List Char → Prop
  | none : Exponent []
  | mark {c : Char} {sign digits : List Char} (hmark : c = 'e' ∨ c = 'E')
      (hsign : sign = [] ∨ sign = ['+'] ∨ sign = ['-'])
      (hdigits : ∀ d ∈ digits, d.isDigit = true) (hne : digits ≠ []) :
      Exponent (c :: (sign ++ digits))

inductive DecimalLiteral : List Char → Prop
  | mk {whole fraction exponent : List Char} (hwhole : Whole whole)
      (hfraction : Fraction fraction) (hexponent : Exponent exponent) :
      DecimalLiteral (whole ++ fraction ++ exponent)

/-! Where a symbol ends. -/

/-- What may follow a word or a number directly. -/
def Separate (rest : List Char) : Prop :=
  ∀ c, rest.head? = some c → Text.isIdentifierPart c = false ∧ c ≠ '.'

theorem separate_nil : Separate [] := by
  intro c hc
  cases hc

theorem separate_cons {c : Char} {rest : List Char}
    (hpart : Text.isIdentifierPart c = false) (hpoint : c ≠ '.') :
    Separate (c :: rest) := by
  intro d hd
  obtain rfl : c = d := Option.some.inj hd
  exact ⟨hpart, hpoint⟩

theorem isIdentifierPart_of_isDigit {c : Char} (hdigit : c.isDigit = true) :
    Text.isIdentifierPart c = true := by
  have hrange : c.toNat < 0x80 := by
    simp only [Char.isDigit, Bool.and_eq_true, decide_eq_true_iff] at hdigit
    have hlast : c.val.toNat ≤ 57 := hdigit.2
    change c.val.toNat < 128
    omega
  simp [Text.isIdentifierPart, Text.isDecimalDigit, hrange, hdigit]

theorem not_isIdentifierStart_of_isDigit {c : Char} (hdigit : c.isDigit = true) :
    Text.isIdentifierStart c = false := by
  simp only [Char.isDigit, Bool.and_eq_true, decide_eq_true_iff] at hdigit
  have hdigits : ∀ n : Nat, n < 58 → 48 ≤ n →
      Text.isIdentifierStart (Char.ofNat n) = false := by
    decide
  have hfirst : 48 ≤ c.toNat := hdigit.1
  have hlast : c.toNat ≤ 57 := hdigit.2
  rw [← Char.ofNat_toNat c]
  exact hdigits c.toNat (by omega) hfirst

theorem span_append {p : Char → Bool} {cs rest : List Char} (hcs : ∀ c ∈ cs, p c = true)
    (hrest : ∀ c, rest.head? = some c → p c = false) :
    (cs ++ rest).takeWhile p = cs ∧ (cs ++ rest).dropWhile p = rest := by
  rw [List.takeWhile_append_of_pos hcs, List.dropWhile_append_of_pos hcs]
  cases rest with
  | nil => simp
  | cons c rest => simp [hrest c rfl]

theorem isDigit_eq_false_of_separate {rest : List Char} (hrest : Separate rest) {c : Char}
    (hc : rest.head? = some c) : c.isDigit = false := by
  rw [Bool.eq_false_iff]
  intro hdigit
  have hpart := (hrest c hc).1
  rw [isIdentifierPart_of_isDigit hdigit] at hpart
  cases hpart

theorem head_exponent_append {exponent rest : List Char} (hexponent : Exponent exponent)
    (hrest : Separate rest) {c : Char} (hc : (exponent ++ rest).head? = some c) :
    c.isDigit = false ∧ c ≠ '.' := by
  cases hexponent with
  | none => exact ⟨isDigit_eq_false_of_separate hrest hc, (hrest c hc).2⟩
  | mark hmark _ _ _ =>
      rw [List.cons_append, List.head?_cons, Option.some.injEq] at hc
      rw [← hc]
      rcases hmark with rfl | rfl <;> decide

theorem head_fraction_append {fraction rest : List Char} (hfraction : Fraction fraction)
    (hrest : ∀ c, rest.head? = some c → c.isDigit = false) {c : Char}
    (hc : (fraction ++ rest).head? = some c) : c.isDigit = false := by
  cases hfraction with
  | none => exact hrest c hc
  | point _ =>
      rw [List.cons_append, List.head?_cons, Option.some.injEq] at hc
      rw [← hc]
      decide

theorem scanExponent_append {exponent rest : List Char} (hexponent : Exponent exponent)
    (hrest : Separate rest) : scanExponent (exponent ++ rest) = (exponent, rest) := by
  cases hexponent with
  | none =>
      cases rest with
      | nil => rfl
      | cons c rest =>
          have hpart := (hrest c rfl).1
          have hmark : ¬ (c = 'e' ∨ c = 'E') := by
            rintro (rfl | rfl)
            · exact absurd hpart (by decide)
            · exact absurd hpart (by decide)
          simp [scanExponent, hmark]
  | @mark c sign digits hmark hsign hdigits hne =>
      have hspan := span_append hdigits fun _ => isDigit_eq_false_of_separate hrest
      have hscan : scanSign (sign ++ (digits ++ rest)) = (sign, digits ++ rest) := by
        rcases hsign with rfl | rfl | rfl
        · cases digits with
          | nil => exact absurd rfl hne
          | cons d digits =>
              have hdigit := hdigits d (by simp)
              have hplus : d ≠ '+' := by
                rintro rfl
                cases hdigit
              have hminus : d ≠ '-' := by
                rintro rfl
                cases hdigit
              simp [scanSign, hplus, hminus]
        · rfl
        · rfl
      simp [scanExponent, hscan, hspan, hmark, hne]

theorem scanFraction_append {fraction rest : List Char} (hfraction : Fraction fraction)
    (hrest : ∀ c, rest.head? = some c → c.isDigit = false ∧ c ≠ '.') :
    scanFraction (fraction ++ rest) = (fraction, rest) := by
  cases hfraction with
  | none =>
      cases rest with
      | nil => rfl
      | cons c rest => simp [scanFraction, (hrest c rfl).2]
  | point hdigits =>
      have hspan := span_append hdigits fun c hc => (hrest c hc).1
      simp [scanFraction, hspan]

theorem scanWhole_append {c : Char} {digits rest : List Char}
    (hwhole : Whole (c :: digits))
    (hrest : ∀ c, rest.head? = some c → c.isDigit = false) :
    scanWhole c (digits ++ rest) = (digits, rest) := by
  cases hwhole with
  | zero => rfl
  | positive _ hne hdigits =>
      have hspan := span_append hdigits hrest
      simp [scanWhole, hne, hspan]

theorem scanDecimal_append {c : Char} {text rest : List Char}
    (hdecimal : DecimalLiteral (c :: text)) (hrest : Separate rest) :
    scanDecimal c (text ++ rest) = (.decimal (String.ofList (c :: text)), rest) := by
  generalize hliteral : c :: text = literal at hdecimal
  cases hdecimal with
  | @mk whole fraction exponent hwhole hfraction hexponent =>
      obtain ⟨digits, rfl⟩ : ∃ digits, whole = c :: digits := by
        cases hwhole <;> simp at hliteral <;> simp [hliteral]
      obtain rfl : text = digits ++ fraction ++ exponent := by simpa using hliteral
      have hafter := @head_exponent_append _ _ hexponent hrest
      have hafterWhole := @head_fraction_append _ _ hfraction fun c hc => (hafter hc).1
      have hparts : digits ++ fraction ++ exponent ++ rest =
          digits ++ (fraction ++ (exponent ++ rest)) := by simp
      unfold scanDecimal
      rw [hparts, scanWhole_append hwhole fun _ => hafterWhole]
      simp only [scanFraction_append hfraction fun _ => hafter,
        scanExponent_append hexponent hrest]
      cases rest with
      | nil => simp
      | cons next rest => simp [(hrest next rfl).1]

/-! Scanning symbol by symbol. -/

/-- A text that can be a name or a keyword. -/
inductive Word : List Char → Prop
  | mk {c : Char} {text : List Char} (hstart : Text.isIdentifierStart c = true)
      (hparts : ∀ d ∈ text, Text.isIdentifierPart d = true) : Word (c :: text)

theorem word_of_all {c : Char} {text : List Char}
    (hstart : Text.isIdentifierStart c = true)
    (hparts : text.all Text.isIdentifierPart = true) : Word (c :: text) :=
  .mk hstart (List.all_eq_true.mp hparts)

def spaces : List Nat := [
  0x9, 0xa, 0xb, 0xc, 0xd, 0x20, 0xa0, 0x1680, 0x2000, 0x2001, 0x2002, 0x2003, 0x2004,
  0x2005, 0x2006, 0x2007, 0x2008, 0x2009, 0x200a, 0x2028, 0x2029, 0x202f, 0x205f, 0x3000,
  0xfeff]

theorem toNat_mem_spaces {c : Char} (hspace : isSpace c = true) : c.toNat ∈ spaces := by
  simp only [isSpace, Text.isBlank, Bool.or_eq_true, Bool.and_eq_true,
    decide_eq_true_iff] at hspace
  simp only [spaces, List.mem_cons, List.not_mem_nil, or_false]
  omega

theorem not_isSpace_of_isIdentifierStart {c : Char}
    (hstart : Text.isIdentifierStart c = true) : isSpace c = false := by
  rw [Bool.eq_false_iff]
  intro hspace
  have hnone : ∀ n ∈ spaces, Text.isIdentifierStart (Char.ofNat n) = false := by
    decide +kernel
  have hfalse := hnone c.toNat (toNat_mem_spaces hspace)
  rw [Char.ofNat_toNat, hstart] at hfalse
  cases hfalse

theorem not_isSpace_of_isDigit {c : Char} (hdigit : c.isDigit = true) :
    isSpace c = false := by
  rw [Bool.eq_false_iff]
  intro hspace
  have hnone : ∀ n ∈ spaces, (Char.ofNat n).isDigit = false := by decide
  have hfalse := hnone c.toNat (toNat_mem_spaces hspace)
  rw [Char.ofNat_toNat, hdigit] at hfalse
  cases hfalse

theorem scanAll_cons (afterReturn : Bool) (c : Char) (rest : List Char) :
    scanAll afterReturn (c :: rest) =
      if isSpace c then
        if afterReturn && isLineBreak c then .semicolon :: scanAll false rest
        else scanAll afterReturn rest
      else
        (scan c rest).1 ::
          scanAll ((scan c rest).1 = .word "return") (scan c rest).2 := by
  rw [scanAll.eq_def]

theorem scanAll_of_scan {c : Char} {rest more : List Char} {t : Terminal}
    (afterReturn : Bool) (hspace : isSpace c = false) (hscan : scan c rest = (t, more)) :
    scanAll afterReturn (c :: rest) = t :: scanAll (t = .word "return") more := by
  rw [scanAll_cons, hscan, hspace]
  rfl

theorem scanAll_space {c : Char} (afterReturn : Bool) (rest : List Char)
    (hspace : isSpace c = true) (hbreak : isLineBreak c = false) :
    scanAll afterReturn (c :: rest) = scanAll afterReturn rest := by
  rw [scanAll_cons, hspace, hbreak, Bool.and_false]
  rfl

theorem scanAll_break {c : Char} (rest : List Char) (hspace : isSpace c = true) :
    scanAll false (c :: rest) = scanAll false rest := by
  rw [scanAll_cons, hspace, Bool.false_and]
  rfl

theorem scanAll_mark {c : Char} {rest more : List Char} {t : Terminal}
    (afterReturn : Bool) (hspace : isSpace c = false)
    (hother : Text.isIdentifierStart c = false ∧ c.isDigit = false)
    (hscan : scanMark c rest = (t, more)) (hreturn : t ≠ .word "return") :
    scanAll afterReturn (c :: rest) = t :: scanAll false more := by
  have hmark : scan c rest = (t, more) := by simp [scan, hother, hscan]
  rw [scanAll_of_scan afterReturn hspace hmark]
  simp [hreturn]

theorem scanAll_punctuation (c : Char) (t : Terminal) (hmark : punctuation? c = some t)
    (afterReturn : Bool) (rest : List Char) :
    scanAll afterReturn (c :: rest) = t :: scanAll false rest := by
  have hscan : scanMark c rest = (t, rest) := by simp [scanMark, hmark]
  unfold punctuation? at hmark
  split at hmark
  case h_10 => cases hmark
  all_goals
    cases hmark
    exact scanAll_mark afterReturn (by decide) (by decide) hscan nofun

theorem scanAll_doubled (c : Char) (t : Terminal) (hmark : doubled? c = some t)
    (afterReturn : Bool) (rest : List Char) :
    scanAll afterReturn (c :: c :: rest) = t :: scanAll false rest := by
  unfold doubled? at hmark
  split at hmark
  case h_4 => cases hmark
  all_goals
    cases hmark
    exact scanAll_mark afterReturn (by decide) (by decide) rfl nofun

theorem scanAll_word {text rest : List Char} (afterReturn : Bool) (hword : Word text)
    (hrest : Separate rest) :
    scanAll afterReturn (text ++ rest) =
      .word (String.ofList text) :: scanAll (String.ofList text = "return") rest := by
  cases hword with
  | @mk c text hstart hparts =>
      have hspan := span_append hparts fun c hc => (hrest c hc).1
      have hscan : scan c (text ++ rest) = (.word (String.ofList (c :: text)), rest) := by
        simp [scan, hstart, scanWord, hspan]
      rw [List.cons_append,
        scanAll_of_scan afterReturn (not_isSpace_of_isIdentifierStart hstart) hscan]
      simp

theorem scanAll_decimal {text rest : List Char} (afterReturn : Bool)
    (hdecimal : DecimalLiteral text) (hrest : Separate rest) :
    scanAll afterReturn (text ++ rest) =
      .decimal (String.ofList text) :: scanAll false rest := by
  obtain ⟨c, more, rfl, hdigit⟩ : ∃ c more, text = c :: more ∧ c.isDigit = true := by
    cases hdecimal with
    | mk hwhole _ _ =>
        cases hwhole with
        | zero => exact ⟨'0', _, rfl, rfl⟩
        | positive hdigit _ _ => exact ⟨_, _, rfl, hdigit⟩
  have hstart := not_isIdentifierStart_of_isDigit hdigit
  have hscan : scan c (more ++ rest) = (.decimal (String.ofList (c :: more)), rest) := by
    simp [scan, hstart, hdigit, scanDecimal_append hdecimal hrest]
  rw [List.cons_append,
    scanAll_of_scan afterReturn (not_isSpace_of_isDigit hdigit) hscan]
  simp

end ScriptTree.Js.Syntax
