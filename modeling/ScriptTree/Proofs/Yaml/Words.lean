import ScriptTree.Proofs.Json.Reader
import ScriptTree.Proofs.Yaml.Cursor
import ScriptTree.Proofs.Yaml.Shared

/-!
Scalars inside of brackets: words of plain characters, and quoted strings of one line.
-/

namespace ScriptTree.Yaml

open Json.Syntax (SharedChar SharedString Spaced Hex4 Literal)
open Scan
open Cursor (Clean Reaches)

variable {c : Cursor}

/-! Gaps. -/

theorem isBreak_of_spaced {text : List Char} (htext : Spaced text) {x : Char} (hx : x ∈ text) :
    x = ' ' ∨ isGap x = false ∧ isBreak x = true := by
  rcases htext x hx with rfl | rfl | rfl
  · exact .inl rfl
  · exact .inr (by decide)
  · exact .inr (by decide)

theorem exists_left_of_break {x : Char} {text tail : List Char} {d : Cursor}
    (htail : tail.head? ≠ some '\n')
    (hbreak : c.Reaches [x] d ∨ ∃ more, text ++ tail = '\n' :: more ∧ c.Reaches [x, '\n'] d) :
    ∃ passed left, x :: text = passed ++ left ∧ left.length ≤ text.length ∧ c.Reaches passed d := by
  rcases hbreak with hsingle | ⟨more, hmore, hpair⟩
  · exact ⟨[x], text, rfl, Nat.le_refl _, hsingle⟩
  · cases text with
    | nil =>
        rw [List.nil_append] at hmore
        exact absurd (by rw [hmore]; rfl) htail
    | cons y text =>
        obtain ⟨rfl, -⟩ := List.cons.inj hmore
        exact ⟨[x, '\n'], text, rfl, by simp, hpair⟩

theorem readBreak_succeeds (hclean : c.Clean) {x : Char} {tail : List Char}
    (hrest : c.rest = x :: tail) (hbreak : isBreak x = true) :
    Succeeds readBreak c fun _ d =>
      c.Reaches [x] d ∨ ∃ more, tail = '\n' :: more ∧ c.Reaches [x, '\n'] d := by
  refine (need_succeeds hclean 2).andThen fun _ d hd => ?_
  refine Succeeds.bind (Succeeds.get (Succeeds.bind (Succeeds.modify (Succeeds.pure ?_))))
  exact hd.nextLine hrest hbreak

theorem readBreak_need_succeeds {next : List Char → Scan α} {post : α → Cursor → Prop}
    (hclean : c.Clean) {x : Char} {text tail : List Char} (hrest : c.rest = x :: (text ++ tail))
    (hbreak : isBreak x = true) (htail : tail.head? ≠ some '\n')
    (hnext : ∀ y d passed left, x :: text = passed ++ left → left.length ≤ text.length →
      c.Reaches passed d → Succeeds (next y) d post) :
    Succeeds (do let y ← readBreak; need 1; next y) c post := by
  refine (readBreak_succeeds hclean hrest hbreak).andThen fun y d hd => ?_
  obtain ⟨passed, left, hsplit, hleft, hd⟩ := exists_left_of_break htail hd
  refine (need_succeeds hd.clean 1).andThen fun _ e he => ?_
  exact hnext y e passed left hsplit hleft (by simpa using hd.trans he)

/-- Blanks are passed up to what is no blank, and spaces alone are kept. -/
theorem Gap.read_succeeds {start : Nat} {tabAllowed : Cursor → Bool} (hclean : c.Clean)
    {text tail : List Char} (hrest : c.rest = text ++ tail) (htext : Spaced text)
    (htail : tail.head?.any (fun x => isGap x || isBreak x) = false) {fuel : Nat}
    (hfuel : text.length < fuel) (g : Gap) :
    Succeeds (Gap.read start tabAllowed fuel g) c fun h d => c.Reaches text d ∧
      (g.broken = false → (∀ x ∈ text, x = ' ') →
        h = { g with spaces := text.reverse ++ g.spaces }) := by
  induction fuel generalizing c text g with
  | zero => omega
  | succ fuel ih =>
      rw [Gap.read]
      refine Succeeds.bind (Succeeds.get ?_)
      cases text with
      | nil =>
          cases tail with
          | nil =>
              rw [hrest]
              exact Succeeds.pure ⟨.refl hclean, fun _ _ => rfl⟩
          | cons y tail =>
              have hy : isGap y = false ∧ isBreak y = false := by simpa using htail
              rw [hrest]
              simp only [List.nil_append, hy, Bool.false_eq_true, if_false]
              exact Succeeds.pure ⟨.refl hclean, fun _ _ => rfl⟩
      | cons x text =>
          rw [hrest]
          simp only [List.cons_append]
          rcases isBreak_of_spaced htext List.mem_cons_self with rfl | ⟨hgap, hbreak⟩
          · rw [if_pos (by decide), if_neg (by simp)]
            refine skip_need_succeeds hclean hrest 1 fun d hd => ?_
            refine (ih hd.clean (hd.rest_of hrest) (htext.of_append [' '])
              (Nat.lt_of_succ_lt_succ hfuel) _).mono ?_
            rintro h e ⟨he, hspaces⟩
            refine ⟨hd.trans he, fun hbroken hall => ?_⟩
            rw [List.forall_mem_cons] at hall
            simp only [hbroken, Bool.false_eq_true, if_false] at hspaces
            simpa [hbroken] using hspaces trivial hall.2
          · have hnext : tail.head? ≠ some '\n' := by
              intro hhead
              rw [hhead] at htail
              exact absurd htail (by decide)
            rw [hgap, if_neg Bool.false_ne_true, if_pos hbreak]
            refine readBreak_need_succeeds hclean hrest hbreak hnext
              fun _ d passed left hsplit hleft hd => ?_
            rw [hsplit, List.append_assoc] at hrest
            rw [hsplit] at htext ⊢
            refine (ih hd.clean (hd.rest_of hrest) (Spaced.of_append passed htext)
              (Nat.lt_of_le_of_lt hleft (Nat.lt_of_succ_lt_succ hfuel)) _).mono ?_
            rintro h e ⟨he, -⟩
            refine ⟨hd.trans he, fun _ hall => ?_⟩
            obtain rfl : x = ' ' := hall x (hsplit ▸ List.mem_cons_self)
            exact absurd hbreak (by decide)

/-! Plain scalars. -/

/-- Characters of a plain scalar that cannot end it. -/
def isPlainChar (x : Char) : Bool :=
  !(isGap x || isBreak x || x = ':' || endsPlainInFlow x)

/-- A mark that ends a plain scalar inside of brackets. -/
def isCloser (x : Char) : Bool := x = ',' || x = ']' || x = '\x7d'

def startsWord (x : Char) : Bool := x.isDigit || x = 't' || x = 'f' || x = 'n'

/-- A plain scalar that is no number of dashes and no comment. -/
structure Word (text : List Char) : Prop where
  plain : ∀ x ∈ text, isPlainChar x = true
  start : ∃ x rest, text = x :: rest ∧
    (startsWord x = true ∨ x = '-' ∧ ∃ y more, rest = y :: more ∧ y.isDigit = true)

/-- No document ends or starts here, and no comment. -/
structure Cursor.Plain (c : Cursor) : Prop where
  dash : c.marker '-' = false
  dot : c.marker '.' = false
  hash : c.looksAt 0 '#' = false

theorem plain_of_head {x : Char} {tail : List Char} (hrest : c.rest = x :: tail)
    (hx : x ≠ '-' ∧ x ≠ '.' ∧ x ≠ '#') : c.Plain := by
  constructor <;> simp [Cursor.marker, Cursor.looksAt, hrest, hx]

theorem ne_of_startsWord {x y : Char} (hx : startsWord x = true) (hy : startsWord y = false) :
    x ≠ y := by
  rintro rfl
  simp [hx] at hy

theorem Word.plain_cursor {text tail : List Char} (hword : Word text)
    (hrest : c.rest = text ++ tail) : c.Plain := by
  obtain ⟨x, rest, rfl, hstart | ⟨rfl, y, more, rfl, hy⟩⟩ := hword.start
  · refine plain_of_head hrest ⟨?_, ?_, ?_⟩ <;> exact ne_of_startsWord hstart (by decide)
  · have hdash : y ≠ '-' := by
      rintro rfl
      exact absurd hy (by decide)
    constructor <;> simp [Cursor.marker, Cursor.looksAt, hrest, hdash]

theorem ends_of_isCloser {x : Char} (hcloser : isCloser x = true) :
    isGap x = false ∧ isBreak x = false ∧ endsPlainInFlow x = true ∧ x ≠ '-' ∧ x ≠ '.' ∧
      x ≠ '#' := by
  simp only [isCloser, Bool.or_eq_true, decide_eq_true_eq] at hcloser
  rcases hcloser with (rfl | rfl) | rfl <;> decide

theorem plainWord_succeeds (hclean : c.Clean) {text tail : List Char} {y : Char}
    (hrest : c.rest = text ++ y :: tail) (htext : ∀ x ∈ text, isPlainChar x = true)
    (hy : (isGap y || isBreak y || endsPlainInFlow y) = true) {fuel : Nat}
    (hfuel : text.length ≤ fuel) (word : List Char) :
    Succeeds (plainWord true fuel word) c fun result d =>
      result = text.reverse ++ word ∧ c.Reaches text d := by
  induction fuel generalizing c text word with
  | zero =>
      obtain rfl := List.length_eq_zero_iff.mp (Nat.le_zero.mp hfuel)
      exact Succeeds.pure ⟨rfl, .refl hclean⟩
  | succ fuel ih =>
      rw [plainWord]
      refine Succeeds.bind (Succeeds.get ?_)
      cases text with
      | nil =>
          have hends : (isGap y || isBreak y || (y = ':' && c.endsWord 1) ||
              (true && endsPlainInFlow y)) = true := by
            simp only [Bool.or_eq_true, Bool.true_and] at hy ⊢
            exact hy.imp_left .inl
          rw [hrest]
          simp only [List.nil_append, hends, if_true]
          exact Succeeds.pure ⟨rfl, .refl hclean⟩
      | cons x text =>
          rw [List.forall_mem_cons] at htext
          have hgoes : (isGap x || isBreak x || (x = ':' && c.endsWord 1) ||
              (true && endsPlainInFlow x)) = false := by
            have hx := htext.1
            simp only [isPlainChar, Bool.not_eq_true', Bool.or_eq_false_iff] at hx
            simp [hx]
          rw [hrest]
          simp only [List.cons_append, hgoes, Bool.false_eq_true, if_false]
          refine skip_need_succeeds hclean hrest 2 fun d hd => ?_
          refine (ih hd.clean (hd.rest_of hrest) htext.2
            (Nat.le_of_succ_le_succ hfuel) (x :: word)).mono ?_
          rintro result e ⟨rfl, he⟩
          exact ⟨by simp, hd.trans he⟩

/-- A plain scalar is over at a mark, with or without a word before it. -/
theorem plainFrom_before_closer (hclean : c.Clean) {word tail : List Char} {x : Char}
    (hrest : c.rest = word ++ x :: tail) (hx : isCloser x = true)
    (hword : ∀ y ∈ word, isPlainChar y = true)
    (hplain : ∀ d : Cursor, d.rest = word ++ x :: tail → d.Plain) {start fuel : Nat} {indent : Int}
    (text : List Char) (pending : Gap) :
    Succeeds (plainFrom start true indent (fuel + 1) text pending) c fun p d =>
      p.text = (if word.isEmpty then text else word.reverse ++ pending.text ++ text) ∧
        c.Reaches word d := by
  obtain ⟨hgap, hbreak, hends, -⟩ := ends_of_isCloser hx
  rw [plainFrom]
  refine (need_succeeds hclean 4).andThen fun _ d hd => Succeeds.bind (Succeeds.get ?_)
  have hrest' := hd.same.trans hrest
  have hplain := hplain d hrest'
  simp only [hplain.dash, hplain.dot, hplain.hash, Bool.or_self, Bool.false_eq_true, if_false]
  have hsize := hd.clean.size
  rw [hrest', List.length_append] at hsize
  refine (plainWord_succeeds hd.clean hrest' hword (by simp [hends]) (by omega) []).andThen ?_
  rintro _ e ⟨rfl, he⟩
  refine Succeeds.bind (Succeeds.get ?_)
  have hstop : (!(e.gapAt 0 || e.breakAt 0)) = true := by
    simp [Cursor.gapAt, Cursor.breakAt, he.rest_of hrest', hgap, hbreak]
  rw [if_pos hstop]
  exact Succeeds.pure ⟨by simp, hd.trans he⟩

theorem plainFrom_of_isCloser (hclean : c.Clean) {x : Char} {tail : List Char}
    (hrest : c.rest = x :: tail) (hx : isCloser x = true) {start fuel : Nat} {indent : Int}
    (text : List Char) (pending : Gap) :
    Succeeds (plainFrom start true indent (fuel + 1) text pending) c fun p d =>
      p.text = text ∧ c.Reaches [] d := by
  have hempty : c.rest = [] ++ x :: tail := hrest
  obtain ⟨-, -, -, hmarks⟩ := ends_of_isCloser hx
  exact plainFrom_before_closer hclean hempty hx nofun (fun _ hd => plain_of_head hd hmarks)
    text pending

theorem Word.isEmpty_eq_false {text : List Char} (hword : Word text) : text.isEmpty = false := by
  obtain ⟨x, rest, rfl, -⟩ := hword.start
  rfl

theorem plainFrom_word (hclean : c.Clean) {text tail : List Char} {x : Char}
    (hrest : c.rest = text ++ x :: tail) (hword : Word text) (hx : isCloser x = true)
    {start fuel : Nat} {indent : Int} :
    Succeeds (plainFrom start true indent (fuel + 1) [] {}) c fun p d =>
      p.text = text.reverse ∧ c.Reaches text d := by
  refine (plainFrom_before_closer hclean hrest hx hword.plain (fun _ => hword.plain_cursor)
    [] {}).mono ?_
  rintro p d ⟨htext, hd⟩
  exact ⟨by simp [htext, hword.isEmpty_eq_false, Gap.text], hd⟩

/-- After the word and the blanks there is another turn, which finds nothing more. -/
theorem plainFrom_word_gap (hclean : c.Clean) {text gap tail : List Char} {x y : Char}
    (hrest : c.rest = text ++ (y :: gap ++ x :: tail)) (hword : Word text)
    (hgap : Spaced (y :: gap)) (hx : isCloser x = true) {start fuel : Nat} {indent : Int} :
    Succeeds (plainFrom start true indent (fuel + 2) [] {}) c fun p d =>
      p.text = text.reverse ∧ c.Reaches (text ++ y :: gap) d := by
  have hcloser := ends_of_isCloser hx
  have hblank : (isGap y || isBreak y) = true := by
    rcases isBreak_of_spaced hgap List.mem_cons_self with rfl | ⟨-, hbreak⟩
    · decide
    · simp [hbreak]
  rw [plainFrom]
  refine (need_succeeds hclean 4).andThen fun _ d hd => Succeeds.bind (Succeeds.get ?_)
  have hrest' := hd.same.trans hrest
  have hplain := hword.plain_cursor hrest'
  simp only [hplain.dash, hplain.dot, hplain.hash, Bool.or_self, Bool.false_eq_true, if_false]
  have hsize := hd.clean.size
  rw [hrest', List.length_append] at hsize
  refine (plainWord_succeeds hd.clean hrest' hword.plain (by simp [hblank])
    (by omega) []).andThen ?_
  rintro _ e ⟨rfl, he⟩
  refine Succeeds.bind (Succeeds.get ?_)
  have hrest'' := he.rest_of hrest'
  have hgoes : (e.gapAt 0 || e.breakAt 0) = true := by
    simpa [Cursor.gapAt, Cursor.breakAt, hrest''] using hblank
  simp only [hgoes, Bool.not_true, Bool.false_eq_true, if_false]
  refine (need_succeeds he.clean 1).andThen fun _ f hf => ?_
  have hfuel : (y :: gap).length < e.size + 1 := by
    have hsize := he.clean.size
    rw [hrest'', List.length_append] at hsize
    omega
  refine (Gap.read_succeeds hf.clean (hf.same.trans hrest'') hgap (by simp [hcloser])
    hfuel _).andThen ?_
  rintro pending g ⟨hg, -⟩
  refine Succeeds.bind (Succeeds.get ?_)
  simp only [Bool.false_and, Bool.false_eq_true, if_false]
  refine (plainFrom_of_isCloser hg.clean (hg.rest_of (hf.same.trans hrest'')) hx _ _).mono ?_
  rintro p h ⟨htext, hh⟩
  refine ⟨?_, ?_⟩
  · simp [htext, hword.isEmpty_eq_false, Gap.text]
  · simpa using (hd.trans he).trans (hf.trans (hg.trans hh))

/-- A plain scalar ends at a mark, and takes the blanks before it along. -/
theorem plainScalar_succeeds (hclean : c.Clean) {text gap tail : List Char} {x : Char}
    (hrest : c.rest = text ++ (gap ++ x :: tail)) (hword : Word text) (hgap : Spaced gap)
    (hx : isCloser x = true) (indent : Int) :
    Succeeds (plainScalar true indent) c fun p d =>
      p.text = text ∧ c.Reaches (text ++ gap) d := by
  refine Succeeds.bind (Succeeds.get ?_)
  cases gap with
  | nil =>
      refine (plainFrom_word hclean hrest hword hx).andThen ?_
      rintro p d ⟨htext, hd⟩
      exact Succeeds.pure ⟨by simp [htext], by simpa using hd⟩
  | cons y gap =>
      obtain ⟨fuel, hfuel⟩ : ∃ fuel, c.size = fuel + 1 := by
        have hpos := hclean.size
        rw [hrest, List.length_append, List.length_append, List.length_cons] at hpos
        exact ⟨c.size - 1, by omega⟩
      rw [hfuel]
      refine (plainFrom_word_gap hclean hrest hword hgap hx).andThen ?_
      rintro p d ⟨htext, hd⟩
      exact Succeeds.pure ⟨by simp [htext], hd⟩

/-! Quoted scalars. -/

theorem isDigitOf_of_hex4 {digits : List Char} {n : Nat} (hdigits : Hex4 digits n) :
    digits.length = 4 ∧ digits.all (Number.isDigitOf 16) = true ∧ Number.valueOf 16 digits = n := by
  obtain ⟨ha, hb, hc, hd⟩ := hdigits
  obtain ⟨hi, ha⟩ := Json.Reader.digitValue?_of_hexDigit ha
  obtain ⟨hj, hb⟩ := Json.Reader.digitValue?_of_hexDigit hb
  obtain ⟨hk, hc⟩ := Json.Reader.digitValue?_of_hexDigit hc
  obtain ⟨hl, hd⟩ := Json.Reader.digitValue?_of_hexDigit hd
  simp [Number.isDigitOf, Number.valueOf, ha, hb, hc, hd, hi, hj, hk, hl]

theorem quotedEscape_short {start : Nat} (hclean : c.Clean) {mark x : Char} {tail : List Char}
    (hrest : c.rest = '\\' :: mark :: tail) (hmark : quotedEscape? mark = some x) :
    Succeeds (quotedEscape start) c fun y d => y = x ∧ c.Reaches ['\\', mark] d := by
  refine Succeeds.bind (Succeeds.get ?_)
  simp only [hrest, List.getElem?_cons_succ, List.getElem?_cons_zero, Option.bind_some, hmark]
  refine (skipMany_succeeds hclean ['\\', mark] hrest).andThen fun _ d hd => ?_
  exact Succeeds.pure ⟨rfl, hd⟩

theorem quotedEscape_code {start : Nat} (hclean : c.Clean) {digits tail : List Char} {x : Char}
    (hrest : c.rest = '\\' :: 'u' :: (digits ++ tail)) (hdigits : Hex4 digits x.toNat) :
    Succeeds (quotedEscape start) c fun y d => y = x ∧ c.Reaches ('\\' :: 'u' :: digits) d := by
  obtain ⟨hlength, hall, hvalue⟩ := isDigitOf_of_hex4 hdigits
  have hmark : quotedEscape? 'u' = none ∧ escapeWidth? 'u' = some 4 := by decide
  refine Succeeds.bind (Succeeds.get ?_)
  simp only [hrest, List.getElem?_cons_succ, List.getElem?_cons_zero, Option.bind_some, hmark]
  refine (skipMany_succeeds hclean ['\\', 'u'] hrest).andThen fun _ d hd => ?_
  refine (need_succeeds hd.clean 4).andThen fun _ e he => ?_
  refine Succeeds.bind (Succeeds.get ?_)
  have hreach := hd.trans he
  have hrest' : e.rest = digits ++ tail := hreach.rest_of hrest
  have htake : e.rest.take 4 = digits := by
    rw [hrest', ← hlength, List.take_left]
  have hvalid : x.toNat.isValidChar := x.valid
  simp only [htake, hlength, hall, hvalue, hvalid, Nat.lt_irrefl, decide_false, decide_true,
    Bool.not_true, Bool.or_self, Bool.false_eq_true, if_false]
  rw [← hlength]
  refine (skipMany_succeeds he.clean digits hrest').andThen fun _ f hf => ?_
  exact Succeeds.pure ⟨Char.ofNat_toNat x, hreach.trans hf⟩

theorem quotedWord_escape {start fuel : Nat} {piece tail : List Char} {mark x : Char}
    (hrest : c.rest = '\\' :: mark :: tail) (hmark : isBreak mark = false)
    (hescape : Succeeds (quotedEscape start) c fun y d => y = x ∧ c.Reaches piece d)
    {text : List Char} {post : List Char × Bool → Cursor → Prop}
    (hnext : ∀ d, c.Reaches piece d → Succeeds (quotedWord start false fuel (x :: text)) d post) :
    Succeeds (quotedWord start false (fuel + 1) text) c post := by
  have hbackslash : isGap '\\' = false ∧ isBreak '\\' = false ∧ '\\' ≠ '"' := by decide
  have hbreak : c.breakAt 1 = false := by simp [Cursor.breakAt, hrest, hmark]
  rw [quotedWord]
  refine Succeeds.bind (Succeeds.get ?_)
  rw [hrest]
  simp only [hbackslash, hbreak, Bool.or_self, Bool.false_and, Bool.not_false, Bool.true_and,
    decide_false, decide_true, Bool.false_eq_true, if_false, if_true]
  refine hescape.andThen ?_
  rintro y d ⟨rfl, hd⟩
  refine (need_succeeds hd.clean 2).andThen fun _ e he => hnext e ?_
  simpa using hd.trans he

theorem quotedWord_piece {start fuel : Nat} (hclean : c.Clean) {piece tail : List Char} {x : Char}
    (hrest : c.rest = piece ++ tail) (hchar : SharedChar piece x) (hspace : piece ≠ [' '])
    {text : List Char} {post : List Char × Bool → Cursor → Prop}
    (hnext : ∀ d, c.Reaches piece d → Succeeds (quotedWord start false fuel (x :: text)) d post) :
    Succeeds (quotedWord start false (fuel + 1) text) c post := by
  cases hchar with
  | literal hliteral =>
      have hgap : isGap x = false := by
        have htab : x ≠ '\t' := by
          rintro rfl
          exact absurd hliteral.control (by decide)
        have hspace : x ≠ ' ' := by simpa using hspace
        simp [isGap, htab, hspace]
      rw [quotedWord]
      refine Succeeds.bind (Succeeds.get ?_)
      rw [hrest]
      simp only [List.cons_append, hgap, hliteral.unbroken, hliteral.quote, hliteral.escape,
        Bool.or_self, Bool.false_and, Bool.not_false, Bool.true_and, decide_false,
        Bool.false_eq_true, if_false]
      exact skip_need_succeeds hclean hrest 2 hnext
  | @short mark _ hmark hslash =>
      have hescapes : ∀ e ∈ Json.Syntax.shortEscapes, e.1 ≠ '/' →
          quotedEscape? e.1 = some e.2 ∧ isBreak e.1 = false := by
        decide
      obtain ⟨hescape, hbreak⟩ := hescapes _ hmark hslash
      exact quotedWord_escape hrest hbreak (quotedEscape_short hclean hrest hescape) hnext
  | @code digits _ hdigits =>
      exact quotedWord_escape hrest (by decide) (quotedEscape_code hclean hrest hdigits) hnext

def textOf (ps : List (List Char × Char)) : List Char := ps.flatMap Prod.fst

theorem exists_pieces {text cs : List Char} (hstring : SharedString text cs) :
    ∃ ps : List (List Char × Char), (∀ p ∈ ps, SharedChar p.1 p.2) ∧ text = textOf ps ∧
      cs = ps.map Prod.snd := by
  induction hstring with
  | nil => exact ⟨[], nofun, rfl, rfl⟩
  | @cons text rest x cs hchar _ ih =>
      obtain ⟨ps, hps, rfl, rfl⟩ := ih
      exact ⟨(text, x) :: ps, List.forall_mem_cons.mpr ⟨hchar, hps⟩, rfl, rfl⟩

theorem length_le_length_textOf {ps : List (List Char × Char)}
    (hps : ∀ p ∈ ps, SharedChar p.1 p.2) :
    ps.length ≤ (textOf ps).length := by
  induction ps with
  | nil => exact Nat.le_refl 0
  | cons p ps ih =>
      obtain ⟨piece, x⟩ := p
      rw [List.forall_mem_cons] at hps
      have hrest := ih hps.2
      have hchar : SharedChar piece x := hps.1
      have hpos : 0 < piece.length := by cases hchar <;> simp
      simp only [textOf, List.flatMap_cons, List.length_append, List.length_cons] at hrest ⊢
      omega

theorem quotedWord_succeeds {start fuel : Nat} (hclean : c.Clean) {ps : List (List Char × Char)}
    {y : Char} {tail : List Char} (hrest : c.rest = textOf ps ++ y :: tail)
    (hps : ∀ p ∈ ps, SharedChar p.1 p.2 ∧ p.1 ≠ [' ']) (hy : y = ' ' ∨ y = '"')
    (hfuel : ps.length ≤ fuel) (text : List Char) :
    Succeeds (quotedWord start false fuel text) c fun result d =>
      result = ((ps.map Prod.snd).reverse ++ text, false) ∧ c.Reaches (textOf ps) d := by
  induction fuel generalizing c ps text with
  | zero =>
      obtain rfl := List.length_eq_zero_iff.mp (Nat.le_zero.mp hfuel)
      exact Succeeds.pure ⟨rfl, .refl hclean⟩
  | succ fuel ih =>
      cases ps with
      | nil =>
          rw [quotedWord]
          refine Succeeds.bind (Succeeds.get ?_)
          rw [hrest]
          rcases hy with rfl | rfl
          · exact Succeeds.pure ⟨rfl, .refl hclean⟩
          · exact Succeeds.pure ⟨rfl, .refl hclean⟩
      | cons p ps =>
          rw [List.forall_mem_cons] at hps
          have hrest' : c.rest = p.1 ++ (textOf ps ++ y :: tail) := by
            rw [hrest, textOf, List.flatMap_cons, List.append_assoc]
            rfl
          refine quotedWord_piece hclean hrest' hps.1.1 hps.1.2 fun d hd => ?_
          refine (ih hd.clean (hd.rest_of hrest') hps.2 (Nat.le_of_succ_le_succ hfuel) _).mono ?_
          rintro result e ⟨rfl, he⟩
          exact ⟨by simp, hd.trans he⟩

theorem textOf_append (ps qs : List (List Char × Char)) :
    textOf (ps ++ qs) = textOf ps ++ textOf qs :=
  List.flatMap_append

/-- After spaces a string goes on with a character that is no blank, or ends. -/
theorem head?_textOf {ps : List (List Char × Char)} (hps : ∀ p ∈ ps, SharedChar p.1 p.2)
    (hfirst : ps.head?.any (fun p => p.1 = [' ']) = false) (tail : List Char) :
    (textOf ps ++ '"' :: tail).head?.any (fun x => isGap x || isBreak x) = false := by
  cases ps with
  | nil => rfl
  | cons p ps =>
      obtain ⟨piece, x⟩ := p
      have hchar : SharedChar piece x := hps _ List.mem_cons_self
      have hspace : piece ≠ [' '] := by simpa using hfirst
      cases hchar with
      | literal hliteral =>
          have htab : x ≠ '\t' := by
            rintro rfl
            exact absurd hliteral.control (by decide)
          have hspace : x ≠ ' ' := by simpa using hspace
          simp [textOf, isGap, htab, hspace, hliteral.unbroken]
      | short => simp [textOf]; decide
      | code => simp [textOf]; decide

theorem eq_of_space {x : Char} (hchar : SharedChar [' '] x) : x = ' ' := by
  cases hchar
  rfl

theorem textOf_spaces {ps : List (List Char × Char)} (hps : ∀ p ∈ ps, SharedChar p.1 p.2)
    (hspaces : ∀ p ∈ ps, p.1 = [' ']) :
    textOf ps = ps.map Prod.snd ∧ ∀ x ∈ textOf ps, x = ' ' := by
  induction ps with
  | nil => exact ⟨rfl, nofun⟩
  | cons p ps ih =>
      obtain ⟨piece, x⟩ := p
      rw [List.forall_mem_cons] at hps hspaces
      obtain rfl : piece = [' '] := hspaces.1
      obtain rfl := eq_of_space hps.1
      obtain ⟨htext, hall⟩ := ih hps.2 hspaces.2
      have hcons : textOf (([' '], ' ') :: ps) = ' ' :: textOf ps := rfl
      rw [hcons, List.forall_mem_cons, htext]
      exact ⟨rfl, rfl, htext ▸ hall⟩

theorem eq_of_isBreak {x : Char} (hx : isBreak x = true) :
    x ∈ ['\n', '\r', Char.ofNat 0x85, Char.ofNat 0x2028, Char.ofNat 0x2029] := by
  simp only [isBreak, Bool.or_eq_true, decide_eq_true_eq] at hx
  rcases hx with (((rfl | rfl) | hcode) | hcode) | hcode
  · decide
  · decide
  all_goals
    rw [← Char.ofNat_toNat x, hcode]
    decide

theorem isBreak_of_isDigitOf {x : Char} (hx : Number.isDigitOf 16 x = true) :
    isBreak x = false := by
  have hbreaks : ∀ y ∈ ['\n', '\r', Char.ofNat 0x85, Char.ofNat 0x2028, Char.ofNat 0x2029],
      Number.isDigitOf 16 y = false := by
    simp only [List.forall_mem_cons, List.not_mem_nil, false_implies, implies_true]
    decide
  cases hbreak : isBreak x with
  | false => rfl
  | true => simp [hbreaks x (eq_of_isBreak hbreak)] at hx

theorem isBreak_of_sharedChar {piece : List Char} {x : Char} (hchar : SharedChar piece x) :
    ∀ y ∈ piece, isBreak y = false := by
  cases hchar with
  | literal hliteral => simpa using hliteral.unbroken
  | @short mark _ hmark _ =>
      have hmarks : ∀ e ∈ Json.Syntax.shortEscapes, isBreak e.1 = false := by decide
      have hbackslash : isBreak '\\' = false := by decide
      simp [hbackslash, hmarks _ hmark]
  | code hdigits =>
      have hdigits := (isDigitOf_of_hex4 hdigits).2.1
      rw [List.all_eq_true] at hdigits
      have hstart : isBreak '\\' = false ∧ isBreak 'u' = false := by decide
      rw [List.forall_mem_cons, List.forall_mem_cons]
      exact ⟨hstart.1, hstart.2, fun y hy => isBreak_of_isDigitOf (hdigits y hy)⟩

theorem isBreak_textOf {ps : List (List Char × Char)} (hps : ∀ p ∈ ps, SharedChar p.1 p.2) :
    ∀ x ∈ textOf ps, isBreak x = false := by
  intro x hx
  obtain ⟨p, hp, hx⟩ := List.mem_flatMap.mp hx
  exact isBreak_of_sharedChar (hps p hp) x hx

theorem exists_span (q : α → Bool) (l : List α) :
    ∃ front back, l = front ++ back ∧ (∀ a ∈ front, q a = true) ∧ back.head?.any q = false := by
  refine ⟨l.takeWhile q, l.dropWhile q, List.takeWhile_append_dropWhile.symm,
    List.all_eq_true.mp List.all_takeWhile, ?_⟩
  cases hback : l.dropWhile q with
  | nil => rfl
  | cons a back =>
      have hhead := List.head?_dropWhile_not q l
      simpa [hback] using hhead

/-- A string has a word, spaces and what begins another word; after a word without spaces it is
over. -/
theorem exists_word_spaces (ps : List (List Char × Char)) :
    ∃ word spaces left, ps = word ++ (spaces ++ left) ∧ (∀ p ∈ word, p.1 ≠ [' ']) ∧
      (∀ p ∈ spaces, p.1 = [' ']) ∧ left.head?.any (fun p => p.1 = [' ']) = false ∧
      (spaces = [] → left = []) := by
  obtain ⟨word, more, rfl, hword, hmore⟩ := exists_span (fun p => p.1 ≠ [' ']) ps
  obtain ⟨spaces, left, rfl, hspaces, hleft⟩ :=
    exists_span (fun p : List Char × Char => p.1 = [' ']) more
  refine ⟨word, spaces, left, rfl, by simpa using hword, by simpa using hspaces, hleft, ?_⟩
  rintro rfl
  cases left with
  | nil => rfl
  | cons p left =>
      have hspace : p.1 = [' '] := by simpa using hmore
      have hother : p.1 ≠ [' '] := by simpa using hleft
      exact absurd hspace hother

/-- Past the first column of a line no document ends. -/
theorem inside_of_column {d : Cursor} (hd : c.Reaches [] d) (hcolumn : c.column ≠ 0)
    (hrest : c.rest ≠ []) : (∀ x, d.marker x = false) ∧ d.atEnd = false := by
  have hcolumn' : d.column ≠ 0 := by
    rw [(hd.straight nofun).2]
    exact hcolumn
  rw [← hd.same] at hrest
  exact ⟨fun x => by simp [Cursor.marker, hcolumn'], by simp [Cursor.atEnd, hrest]⟩

section Turn

variable {start fuel : Nat} {word : List (List Char × Char)} {tail : List Char}

theorem length_le_of_word (hclean : c.Clean) (hrest : c.rest = textOf word ++ tail)
    (hword : ∀ p ∈ word, SharedChar p.1 p.2 ∧ p.1 ≠ [' ']) : word.length ≤ c.size + 1 := by
  have hsize := hclean.size
  have hlength := length_le_length_textOf fun p hp => (hword p hp).1
  rw [hrest, List.length_append] at hsize
  omega

/-- The last turn takes a word and the closing quote. -/
theorem quotedFrom_last (hclean : c.Clean) (hrest : c.rest = textOf word ++ '"' :: tail)
    (hword : ∀ p ∈ word, SharedChar p.1 p.2 ∧ p.1 ≠ [' ']) (hcolumn : c.column ≠ 0)
    (text : List Char) :
    Succeeds (quotedFrom start false (fuel + 1) text) c fun result d =>
      result = (word.map Prod.snd).reverse ++ text ∧ c.Reaches (textOf word ++ ['"']) d := by
  rw [quotedFrom]
  refine (need_succeeds hclean 4).andThen fun _ d hd => Succeeds.bind (Succeeds.get ?_)
  have hrest' := hd.same.trans hrest
  obtain ⟨hmarker, hend⟩ := inside_of_column hd hcolumn (by simp [hrest])
  simp only [hmarker, hend, Bool.or_self, Bool.false_eq_true, if_false]
  refine (quotedWord_succeeds hd.clean hrest' hword (.inr rfl)
    (length_le_of_word hd.clean hrest' hword) text).andThen ?_
  rintro _ e ⟨rfl, he⟩
  refine (need_succeeds he.clean 1).andThen fun _ f hf => Succeeds.bind (Succeeds.get ?_)
  have hrest'' : f.rest = '"' :: tail := hf.same.trans (he.rest_of hrest')
  have hquote : f.looksAt 0 '"' = true := by simp [Cursor.looksAt, hrest'']
  rw [if_pos hquote]
  refine (skip_succeeds hf.clean hrest'').andThen fun _ g hg => Succeeds.pure ⟨rfl, ?_⟩
  simpa using (hd.trans he).trans (hf.trans hg)

/-- Every other turn takes a word and the spaces after it, which are kept. -/
theorem quotedFrom_spaces (hclean : c.Clean) {spaces : List Char}
    (hrest : c.rest = textOf word ++ (' ' :: spaces ++ tail))
    (hword : ∀ p ∈ word, SharedChar p.1 p.2 ∧ p.1 ≠ [' ']) (hspaces : ∀ x ∈ spaces, x = ' ')
    (htail : tail.head?.any (fun x => isGap x || isBreak x) = false) (hcolumn : c.column ≠ 0)
    {text : List Char} {post : List Char → Cursor → Prop}
    (hnext : ∀ d, c.Reaches (textOf word ++ ' ' :: spaces) d →
      Succeeds (quotedFrom start false fuel
        ((' ' :: spaces).reverse ++ ((word.map Prod.snd).reverse ++ text))) d post) :
    Succeeds (quotedFrom start false (fuel + 1) text) c post := by
  rw [quotedFrom]
  refine (need_succeeds hclean 4).andThen fun _ d hd => Succeeds.bind (Succeeds.get ?_)
  have hrest' := hd.same.trans hrest
  obtain ⟨hmarker, hend⟩ := inside_of_column hd hcolumn (by simp [hrest])
  simp only [hmarker, hend, Bool.or_self, Bool.false_eq_true, if_false]
  refine (quotedWord_succeeds hd.clean hrest' hword (.inl rfl)
    (length_le_of_word hd.clean hrest' hword) text).andThen ?_
  rintro _ e ⟨rfl, he⟩
  refine (need_succeeds he.clean 1).andThen fun _ f hf => Succeeds.bind (Succeeds.get ?_)
  have hgap : f.rest = ' ' :: spaces ++ tail := hf.same.trans (he.rest_of hrest')
  have hquote : f.looksAt 0 '"' = false := by simp [Cursor.looksAt, hgap]
  simp only [hquote, Bool.false_eq_true, if_false]
  have hall : ∀ x ∈ ' ' :: spaces, x = ' ' := List.forall_mem_cons.mpr ⟨rfl, hspaces⟩
  have hroom : (' ' :: spaces).length < d.size + 1 := by
    have hsize := hd.clean.size
    rw [hrest', List.length_append, List.length_append] at hsize
    omega
  refine (Gap.read_succeeds hf.clean hgap (fun x hx => .inl (hall x hx)) htail hroom _).andThen ?_
  rintro gap g ⟨hg, hkeep⟩
  obtain rfl := hkeep rfl hall
  have hreach := (hd.trans he).trans (hf.trans hg)
  simpa [Gap.text] using hnext g (by simpa using hreach)

end Turn

theorem quotedFrom_succeeds {start fuel : Nat} (hclean : c.Clean) {ps : List (List Char × Char)}
    {tail : List Char} (hrest : c.rest = textOf ps ++ '"' :: tail)
    (hps : ∀ p ∈ ps, SharedChar p.1 p.2) (hcolumn : c.column ≠ 0) (hfuel : ps.length < fuel)
    (text : List Char) :
    Succeeds (quotedFrom start false fuel text) c fun result d =>
      result = (ps.map Prod.snd).reverse ++ text ∧ c.Reaches (textOf ps ++ ['"']) d := by
  induction fuel generalizing c ps text with
  | zero => omega
  | succ fuel ih =>
      obtain ⟨word, spaces, left, rfl, hword, hspaces, hleft, hlast⟩ := exists_word_spaces ps
      rw [List.forall_mem_append, List.forall_mem_append] at hps
      have hpieces : ∀ p ∈ word, SharedChar p.1 p.2 ∧ p.1 ≠ [' '] := fun p hp =>
        ⟨hps.1 p hp, hword p hp⟩
      cases spaces with
      | nil =>
          obtain rfl := hlast rfl
          simp only [List.append_nil] at hrest ⊢
          exact quotedFrom_last hclean hrest hpieces hcolumn text
      | cons p spaces =>
          obtain ⟨piece, x⟩ := p
          rw [List.forall_mem_cons] at hspaces
          obtain rfl : piece = [' '] := hspaces.1
          obtain rfl := eq_of_space (hps.2.1 _ List.mem_cons_self)
          obtain ⟨hkept, hall⟩ := textOf_spaces (List.forall_mem_cons.mp hps.2.1).2 hspaces.2
          have hcons : textOf (([' '], ' ') :: spaces) = ' ' :: textOf spaces := rfl
          rw [textOf_append, textOf_append, hcons, List.append_assoc, List.append_assoc] at hrest
          refine quotedFrom_spaces hclean hrest hpieces hall (head?_textOf hps.2.2 hleft tail)
            hcolumn fun d hd => ?_
          have hturn : d.column ≠ 0 := by
            have hbreaks := List.forall_mem_append.mpr
              ⟨isBreak_textOf hps.1, isBreak_textOf hps.2.1⟩
            rw [(hd.straight hbreaks).2]
            omega
          have hfewer : left.length < fuel := by
            rw [List.length_append, List.length_append, List.length_cons] at hfuel
            omega
          rw [← List.append_assoc] at hrest
          refine (ih hd.clean (hd.rest_of hrest) hps.2.2 hturn hfewer _).mono ?_
          rintro result e ⟨rfl, he⟩
          refine ⟨by simp [hkept], ?_⟩
          rw [textOf_append, textOf_append, hcons]
          simpa using hd.trans he

/-- A quoted string is read as what it stands for. -/
theorem quotedScalar_succeeds (hclean : c.Clean) {text cs tail : List Char}
    (hrest : c.rest = '"' :: (text ++ '"' :: tail)) (hstring : SharedString text cs) :
    Succeeds (quotedScalar false) c fun result d =>
      result = cs ∧ c.Reaches ('"' :: (text ++ ['"'])) d := by
  obtain ⟨ps, hps, rfl, rfl⟩ := exists_pieces hstring
  refine Succeeds.bind (Succeeds.get ?_)
  refine (skip_succeeds hclean hrest).andThen fun _ d hd => Succeeds.bind ?_
  have hcolumn : d.column ≠ 0 := by
    have hquote : isBreak '"' = false := by decide
    rw [(hd.straight (by simp [hquote])).2]
    simp
  have hfuel : ps.length < c.size + 2 := by
    have hsize := hclean.size
    have hlength := length_le_length_textOf hps
    rw [hrest, List.length_cons, List.length_append] at hsize
    omega
  refine (quotedFrom_succeeds hd.clean (hd.rest_of hrest) hps hcolumn hfuel []).mono ?_
  rintro _ e ⟨rfl, he⟩
  exact Succeeds.pure ⟨by simp, hd.trans he⟩

theorem isBreak_of_sharedString {text cs : List Char} (hstring : SharedString text cs) :
    ∀ x ∈ '"' :: (text ++ ['"']), isBreak x = false := by
  obtain ⟨ps, hps, rfl, -⟩ := exists_pieces hstring
  have hquote : isBreak '"' = false := by decide
  rw [List.forall_mem_cons, List.forall_mem_append]
  exact ⟨hquote, isBreak_textOf hps, by simpa using hquote⟩

end ScriptTree.Yaml
