import ScriptTree.Js.Printer
import ScriptTree.Proofs.Js.Syntax.Grammar
import ScriptTree.Proofs.Number.Literal
import ScriptTree.Proofs.Text.Bytes
import Mathlib.Data.List.Forall2

/-!
The symbols that printed text is read as, piece by piece. A piece has its symbols in
front of whatever is kept apart from it, so that larger texts are put together from
smaller ones.
-/

namespace ScriptTree.Js.Syntax

/-- A text that is read as the given symbols, whatever is around it. -/
def Reads (text : List Char) (ts : List Terminal) : Prop :=
  ∀ afterReturn rest, Separate rest →
    scanAll afterReturn (text ++ rest) = ts ++ scanAll false rest

/-- Bytes of a text that is read as the given symbols and does not end with a line. -/
def Spells (bytes : ByteString) (ts : List Terminal) : Prop :=
  ∃ text, bytes = Text.ofChars text ∧ Reads text ts ∧ text.getLast? ≠ some '\n'

theorem toBytes_eq (s : String) : Text.toBytes s = Text.ofChars s.toList := rfl

theorem scanAll_blank (afterReturn : Bool) (rest : List Char) :
    scanAll afterReturn (' ' :: rest) = scanAll afterReturn rest :=
  scanAll_space afterReturn rest (by decide) (by decide)

theorem scanAll_operator {op : Operator} (hop : 0 < op.tightness) (afterReturn : Bool)
    (rest : List Char) :
    scanAll afterReturn (op.symbol.toList ++ rest) =
      .operator op :: scanAll false rest := by
  cases op with
  | and => exact scanAll_doubled '&' _ rfl afterReturn rest
  | or => exact scanAll_doubled '|' _ rfl afterReturn rest
  | equal => exact scanAll_doubled '=' _ rfl afterReturn rest
  | add => exact scanAll_punctuation '+' _ rfl afterReturn rest
  | other _ => cases hop

theorem spells_of_reads {text : List Char} {ts : List Terminal} (hreads : Reads text ts)
    (hbreak : '\n' ∉ text) : Spells (Text.ofChars text) ts :=
  ⟨text, rfl, hreads, fun hlast => hbreak (List.mem_of_getLast? hlast)⟩

/-! Words and numbers. -/

theorem not_mem_word {text : List Char} (hword : Word text) : '\n' ∉ text := by
  cases hword with
  | mk hstart hparts =>
      intro hmem
      rcases List.mem_cons.mp hmem with rfl | hmem
      · exact absurd hstart (by decide)
      · exact absurd (hparts '\n' hmem) (by decide)

theorem spells_word {text : String} (hword : Word text.toList) (hreturn : text ≠ "return") :
    Spells (Text.toBytes text) [.word text] := by
  apply spells_of_reads _ (not_mem_word hword)
  intro afterReturn rest hrest
  rw [scanAll_word afterReturn hword hrest]
  simp [hreturn]

theorem mem_decimalLiteral {text : List Char} {c : Char}
    (hdecimal : DecimalLiteral text) (hc : c ∈ text) :
    c.isDigit = true ∨ c ∈ ['.', 'e', 'E', '+', '-'] := by
  cases hdecimal with
  | mk hwhole hfraction hexponent =>
      rcases List.mem_append.mp hc with hc | hc
      · rcases List.mem_append.mp hc with hc | hc
        · cases hwhole with
          | zero => simp_all
          | positive hdigit _ hdigits =>
              rcases List.mem_cons.mp hc with rfl | hc
              · exact .inl hdigit
              · exact .inl (hdigits c hc)
        · cases hfraction with
          | none => simp at hc
          | point hdigits =>
              rcases List.mem_cons.mp hc with rfl | hc
              · exact .inr (by simp)
              · exact .inl (hdigits c hc)
      · cases hexponent with
        | none => simp at hc
        | mark hmark hsign hdigits _ =>
            rcases List.mem_cons.mp hc with rfl | hc
            · rcases hmark with rfl | rfl <;> exact .inr (by simp)
            · rcases List.mem_append.mp hc with hc | hc
              · rcases hsign with rfl | rfl | rfl <;> simp_all
              · exact .inl (hdigits c hc)

theorem not_mem_decimal {text : List Char} (hdecimal : DecimalLiteral text) :
    '\n' ∉ text := by
  intro hmem
  rcases mem_decimalLiteral hdecimal hmem with hdigit | hmark
  · cases hdigit
  · exact absurd hmark (by decide)

theorem spells_decimal {text : List Char} (hdecimal : DecimalLiteral text) :
    Spells (Text.ofChars text) [.decimal (String.ofList text)] := by
  apply spells_of_reads _ (not_mem_decimal hdecimal)
  intro afterReturn rest hrest
  exact scanAll_decimal afterReturn hdecimal hrest

theorem spells_minus {text : List Char} (hdecimal : DecimalLiteral text) :
    Spells (Text.ofChars ('-' :: text)) [.minus, .decimal (String.ofList text)] := by
  apply spells_of_reads
  · intro afterReturn rest hrest
    rw [List.cons_append, scanAll_punctuation '-' .minus rfl,
      scanAll_decimal false hdecimal hrest]
    rfl
  · rw [List.mem_cons, not_or]
    exact ⟨by decide, not_mem_decimal hdecimal⟩

/-! Compound texts. -/

theorem getLast?_append_ne {front back : List Char} {c : Char} (hc : c ≠ '\n')
    (hback : back.getLast? ≠ some '\n') :
    (front ++ c :: back).getLast? ≠ some '\n' := by
  cases back with
  | nil => simpa using hc
  | cons d back => simpa using hback

theorem Spells.parenthesize {bytes : ByteString} {ts : List Terminal}
    (hspells : Spells bytes ts) :
    Spells (Expr.parenthesize true bytes) (.openParen :: (ts ++ [.closeParen])) := by
  obtain ⟨text, rfl, hreads, -⟩ := hspells
  refine ⟨('(' :: text) ++ [')'], ?_, ?_, getLast?_append_ne (by decide) nofun⟩
  · simp [Expr.parenthesize, toBytes_eq, ← Text.ofChars_append]
  · intro afterReturn rest hrest
    have happend : ('(' :: text) ++ [')'] ++ rest = '(' :: (text ++ ')' :: rest) := by
      simp
    rw [happend, scanAll_punctuation '(' .openParen rfl,
      hreads _ _ (separate_cons (by decide) (by decide)),
      scanAll_punctuation ')' .closeParen rfl]
    simp

theorem Spells.binary {op : Operator} {left right : ByteString} {ls rs : List Terminal}
    (hop : 0 < op.tightness) (hleft : Spells left ls) (hright : Spells right rs) :
    Spells (left ++ Text.toBytes (" " ++ op.symbol ++ " ") ++ right)
      (ls ++ .operator op :: rs) := by
  obtain ⟨l, rfl, hl, -⟩ := hleft
  obtain ⟨r, rfl, hr, hlast⟩ := hright
  refine ⟨l ++ ' ' :: (op.symbol.toList ++ ' ' :: r), ?_, ?_,
    getLast?_append_ne (by decide) (getLast?_append_ne (by decide) hlast)⟩
  · simp [toBytes_eq, ← Text.ofChars_append]
  · intro afterReturn rest hrest
    have happend : l ++ ' ' :: (op.symbol.toList ++ ' ' :: r) ++ rest =
        l ++ ' ' :: (op.symbol.toList ++ ' ' :: (r ++ rest)) := by simp
    rw [happend, hl _ _ (separate_cons (by decide) (by decide)), scanAll_blank,
      scanAll_operator hop, scanAll_blank, hr _ _ hrest]
    simp

theorem spells_nan :
    Spells (Text.toBytes "(0 / 0)")
      [.openParen, .decimal "0", .slash, .decimal "0", .closeParen] := by
  have hzero : DecimalLiteral ['0'] := Decimal.literal_of_whole .zero
  have hquotient : Spells (Text.toBytes "0 / 0") [.decimal "0", .slash, .decimal "0"] := by
    apply spells_of_reads _ (by decide)
    intro afterReturn rest hrest
    change scanAll afterReturn (['0'] ++ ' ' :: '/' :: ' ' :: (['0'] ++ rest)) = _
    rw [scanAll_decimal _ hzero (separate_cons (by decide) (by decide)), scanAll_blank,
      scanAll_punctuation '/' .slash rfl, scanAll_blank, scanAll_decimal _ hzero hrest]
    rfl
  exact hquotient.parenthesize

theorem Spells.returned {bytes : ByteString} {ts : List Terminal}
    (hspells : Spells bytes ts) :
    Spells (Text.toBytes "return " ++ bytes ++ Text.toBytes ";") (returnSymbols ts) := by
  obtain ⟨text, rfl, hreads, -⟩ := hspells
  have hword : Word "return".toList := word_of_all (by decide) (by decide)
  refine ⟨"return".toList ++ ' ' :: text ++ [';'], ?_, ?_,
    getLast?_append_ne (by decide) nofun⟩
  · simp [toBytes_eq, ← Text.ofChars_append]
  · intro afterReturn rest hrest
    have happend : "return".toList ++ ' ' :: text ++ [';'] ++ rest =
        "return".toList ++ ' ' :: (text ++ ';' :: rest) := by simp
    rw [happend, scanAll_word _ hword (separate_cons (by decide) (by decide)),
      scanAll_blank, hreads _ _ (separate_cons (by decide) (by decide)),
      scanAll_punctuation ';' .semicolon rfl]
    simp [returnSymbols]

/-! Functions. -/

theorem exists_parameterText {names : List String}
    (hnames : ∀ p ∈ names, Word p.toList) :
    ∃ text, List.intercalate (Text.toBytes ", ") (names.map Text.toBytes) =
        Text.ofChars text ∧
      ∀ afterReturn rest, scanAll afterReturn (text ++ ')' :: rest) =
        parameterList names ++ scanAll false rest := by
  induction names with
  | nil =>
      refine ⟨[], rfl, fun afterReturn rest => ?_⟩
      exact scanAll_punctuation ')' .closeParen rfl afterReturn rest
  | cons name more ih =>
      have hword := hnames name (by simp)
      obtain ⟨text, htext, hscan⟩ := ih (fun p hp => hnames p (by simp [hp]))
      cases more with
      | nil =>
          refine ⟨name.toList, by simp [toBytes_eq], fun afterReturn rest => ?_⟩
          rw [scanAll_word _ hword (separate_cons (by decide) (by decide)),
            scanAll_punctuation ')' .closeParen rfl]
          simp [parameterList]
      | cons next more =>
          refine ⟨name.toList ++ ',' :: ' ' :: text, ?_, fun afterReturn rest => ?_⟩
          · rw [List.map_cons, List.map_cons, List.intercalate_cons_cons,
              ← List.map_cons, htext]
            simp [toBytes_eq, ← Text.ofChars_append]
          · have happend : name.toList ++ ',' :: ' ' :: text ++ ')' :: rest =
                name.toList ++ ',' :: ' ' :: (text ++ ')' :: rest) := by simp
            rw [happend, scanAll_word _ hword (separate_cons (by decide) (by decide)),
              scanAll_punctuation ',' .comma rfl, scanAll_blank, hscan]
            simp [parameterList]

theorem scanAll_blanks (n : Nat) (afterReturn : Bool) (rest : List Char) :
    scanAll afterReturn (List.replicate n ' ' ++ rest) = scanAll afterReturn rest := by
  induction n with
  | zero => rfl
  | succ n ih => rw [List.replicate_succ, List.cons_append, scanAll_blank, ih]

theorem indentation_eq (depth : Nat) :
    indentation depth = Text.ofChars (List.replicate (2 * depth) ' ') := by
  simp [indentation, toBytes_eq]

theorem exists_bodyText (depth : Nat) {lines : List ByteString}
    {tss : List (List Terminal)} (hlines : List.Forall₂ Spells lines tss) :
    ∃ text, (lines.map fun line =>
        (if line.isEmpty then [] else indentation (depth + 1) ++ line) ++
          Text.toBytes "\n").flatten = Text.ofChars text ∧
      ∀ rest, scanAll false (text ++ rest) = tss.flatten ++ scanAll false rest := by
  induction hlines with
  | nil => exact ⟨[], rfl, fun rest => rfl⟩
  | @cons line ts lines tss hline _ ih =>
      obtain ⟨text, rfl, hreads, -⟩ := hline
      obtain ⟨more, hmore, hscan⟩ := ih
      obtain ⟨n, hindent⟩ : ∃ n, (if (Text.ofChars text).isEmpty then []
          else indentation (depth + 1) ++ Text.ofChars text) =
            Text.ofChars (List.replicate n ' ' ++ text) := by
        split
        next hempty => exact ⟨0, (List.isEmpty_iff.mp hempty).symm⟩
        next => exact ⟨_, by rw [indentation_eq, Text.ofChars_append]⟩
      refine ⟨List.replicate n ' ' ++ text ++ '\n' :: more, ?_, fun rest => ?_⟩
      · rw [List.map_cons, List.flatten_cons, hmore, hindent]
        simp [toBytes_eq, ← Text.ofChars_append]
      · have happend : List.replicate n ' ' ++ text ++ '\n' :: more ++ rest =
            List.replicate n ' ' ++ (text ++ '\n' :: (more ++ rest)) := by simp
        rw [happend, scanAll_blanks, hreads _ _ (separate_cons (by decide) (by decide)),
          scanAll_break _ (by decide), hscan]
        simp

theorem spells_braces (depth : Nat) {lines : List ByteString}
    {tss : List (List Terminal)} (hlines : List.Forall₂ Spells lines tss) :
    Spells (braces depth lines) (.openBrace :: (tss.flatten ++ [.closeBrace])) := by
  obtain ⟨text, htext, hscan⟩ := exists_bodyText depth hlines
  unfold braces
  split
  next hempty =>
    obtain rfl := List.isEmpty_iff.mp hempty
    cases hlines
    refine ⟨['\x7b', '\x7d'], rfl, fun afterReturn rest _ => ?_, by decide⟩
    rw [List.cons_append, scanAll_punctuation '\x7b' .openBrace rfl, List.cons_append,
      scanAll_punctuation '\x7d' .closeBrace rfl]
    rfl
  next =>
    refine ⟨'\x7b' :: '\n' :: (text ++ List.replicate (2 * depth) ' ') ++ ['\x7d'], ?_,
      fun afterReturn rest _ => ?_, getLast?_append_ne (by decide) nofun⟩
    · rw [htext, indentation_eq]
      simp [toBytes_eq, ← Text.ofChars_append]
    · have happend :
          '\x7b' :: '\n' :: (text ++ List.replicate (2 * depth) ' ') ++ ['\x7d'] ++ rest =
            '\x7b' :: '\n' :: (text ++ (List.replicate (2 * depth) ' ' ++
              '\x7d' :: rest)) := by simp
      rw [happend, scanAll_punctuation '\x7b' .openBrace rfl,
        scanAll_break _ (by decide), hscan, scanAll_blanks,
        scanAll_punctuation '\x7d' .closeBrace rfl]
      simp

theorem Spells.function {name : String} {names : List String} {body : ByteString}
    {ts : List Terminal} (hname : Word name.toList)
    (hnames : ∀ p ∈ names, Word p.toList)
    (hbody : Spells body (.openBrace :: (ts ++ [.closeBrace]))) :
    Spells (Head.print ⟨false, false, some name, some ⟨names.map Text.toBytes, none⟩⟩ ++
        body)
      (functionSymbols name names ts) := by
  obtain ⟨inner, rfl, hreads, hlast⟩ := hbody
  obtain ⟨text, htext, hscan⟩ := exists_parameterText hnames
  have hword : Word "function".toList := word_of_all (by decide) (by decide)
  refine ⟨"function".toList ++ ' ' :: name.toList ++ '(' :: text ++ ')' :: ' ' :: inner,
    ?_, fun afterReturn rest hrest => ?_, ?_⟩
  · simp only [Head.print, Parameters.print, List.append_nil, htext]
    simp [toBytes_eq, ← Text.ofChars_append]
  · have happend :
        "function".toList ++ ' ' :: name.toList ++ '(' :: text ++ ')' :: ' ' :: inner ++
            rest =
          "function".toList ++ ' ' :: (name.toList ++ '(' :: (text ++
            ')' :: ' ' :: (inner ++ rest))) := by simp
    rw [happend, scanAll_word _ hword (separate_cons (by decide) (by decide)),
      scanAll_blank, scanAll_word _ hname (separate_cons (by decide) (by decide)),
      scanAll_punctuation '(' .openParen rfl, hscan, scanAll_blank, hreads _ _ hrest]
    simp [functionSymbols]
  · exact getLast?_append_ne (by decide)
      (@getLast?_append_ne [] _ _ (by decide) hlast)

end ScriptTree.Js.Syntax

namespace ScriptTree

theorem Js.dropFinalBreaks_eq_self {text : ByteString} (hlast : text.getLast? ≠ some 10) :
    dropFinalBreaks text = text := by
  rw [← List.head?_reverse] at hlast
  have hdrop : text.reverse.dropWhile (· = 10) = text.reverse := by
    cases hreverse : text.reverse with
    | nil => rfl
    | cons b bytes =>
        rw [hreverse] at hlast
        have hb : b ≠ 10 := by simpa using hlast
        simp [hb]
  rw [dropFinalBreaks, hdrop, List.reverse_reverse]

/-- What the literal of a number is made of. -/
theorem Number.mem_literal {x : Number} {c : Char} (hc : c ∈ x.literal.toList) :
    c.isDigit = true ∨ c ∈ ['.', 'e', 'E', '+', '-', '(', ' ', '/', ')'] := by
  cases hnan : x.isNaN with
  | true =>
      have hliteral : x.literal = "(0 / 0)" := by
        rw [literal, layOut, if_pos hnan]
      have hall : ∀ c ∈ "(0 / 0)".toList,
          c.isDigit = true ∨ c ∈ ['.', 'e', 'E', '+', '-', '(', ' ', '/', ')'] := by simp
      rw [hliteral] at hc
      exact hall c hc
  | false =>
      obtain ⟨digits, hdigits, hliteral⟩ := Number.exists_literal hnan
      rw [hliteral] at hc
      rcases List.mem_append.mp hc with hsign | hdigit
      · cases x.signbit <;> simp_all
      · rcases Js.Syntax.mem_decimalLiteral hdigits hdigit with hc | hc
        · exact .inl hc
        · exact .inr (List.mem_append_left ['(', ' ', '/', ')'] hc)

theorem Number.break_not_mem_literal (x : Number) : '\n' ∉ x.literal.toList := by
  intro hmem
  exact absurd (mem_literal hmem) (by decide)

end ScriptTree
