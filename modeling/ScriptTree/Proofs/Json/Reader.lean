import ScriptTree.Proofs.Json.Grammar
import ScriptTree.Proofs.Text.Bytes

/-!
The reader accepts every JSON text and finds the value that it stands for. A value ends
where its text ends, except that a number goes on as long as it can.
-/

namespace ScriptTree.Json

open Text (Piece)
open Syntax
open Js.Syntax (Whole Fraction Exponent)

namespace Reader

/-- Characters as they stand in the input. -/
def letters (cs : List Char) : List Piece := cs.map .char

theorem letters_nil : letters [] = [] := rfl

theorem letters_cons (c : Char) (cs : List Char) : letters (c :: cs) = .char c :: letters cs :=
  rfl

theorem letters_append (cs ds : List Char) : letters (cs ++ ds) = letters cs ++ letters ds :=
  List.map_append

theorem letters_enclosed (opening closing : Char) (inner : List Char) (rest : List Piece) :
    letters (opening :: (inner ++ [closing])) ++ rest =
      .char opening :: (letters inner ++ .char closing :: rest) := by
  simp [letters]

theorem ofPieces_letters (cs : List Char) : Text.ofPieces (letters cs) = Text.ofChars cs := by
  simp [letters, Text.ofPieces, Text.ofChars, List.flatMap_map, Piece.bytes]

theorem slice_letters (text : List Char) (rest : List Piece) :
    slice (letters text ++ rest) rest = Text.ofChars text := by
  rw [slice, List.length_append, Nat.add_sub_cancel, List.take_left, ofPieces_letters]

/-! Blanks. -/

theorem skipSpace_blank {cs : List Char} (hblank : Blank cs) (rest : List Piece) :
    skipSpace (letters cs ++ rest) = skipSpace rest := by
  apply List.dropWhile_append_of_pos
  intro p hp
  obtain ⟨c, hc, rfl⟩ := List.mem_map.mp hp
  rcases hblank c hc with rfl | rfl | rfl | rfl <;> rfl

theorem skipSpace_cons {c : Char} (hc : isSpace c = false) (rest : List Piece) :
    skipSpace (.char c :: rest) = .char c :: rest := by
  simp [skipSpace, Piece.isOf, hc]

/-! Numbers. -/

/-- What may follow a number: nothing that would continue it. -/
def Ends (rest : List Piece) : Prop :=
  ∀ c, rest.head? = some (.char c) → c.isDigit = false ∧ c ≠ '.' ∧ c ≠ 'e' ∧ c ≠ 'E'

theorem isDecimalDigit_eq (c : Char) : Number.isDecimalDigit c = c.isDigit := rfl

theorem digits_append {cs : List Char} {rest : List Piece}
    (hcs : ∀ c ∈ cs, c.isDigit = true)
    (hrest : ∀ c, rest.head? = some (.char c) → c.isDigit = false) :
    digits (letters cs ++ rest) = (cs, rest) := by
  induction cs with
  | nil =>
      match rest with
      | [] => rfl
      | .broken byte :: rest => rfl
      | .char c :: rest => simp [letters, digits, isDecimalDigit_eq, hrest c rfl]
  | cons c cs ih =>
      have hmore := ih fun d hd => hcs d (List.mem_cons_of_mem c hd)
      simp [letters_cons, digits, isDecimalDigit_eq, hcs c (by simp), hmore]

theorem whole?_append {whole : List Char} {rest : List Piece} (hwhole : Whole whole)
    (hrest : ∀ c, rest.head? = some (.char c) → c.isDigit = false) :
    whole? (letters whole ++ rest) = some (whole, rest) := by
  cases hwhole with
  | zero => rfl
  | @positive c ds hdigit hne hdigits =>
      have hall : ∀ d ∈ c :: ds, d.isDigit = true := List.forall_mem_cons.mpr ⟨hdigit, hdigits⟩
      have hspan := digits_append hall hrest
      unfold whole?
      split
      next tail heq => exact absurd (Piece.char.inj (List.cons.inj heq).1) hne
      next => simp [hspan]

theorem fraction?_append {fraction : List Char} {rest : List Piece}
    (hfraction : Fraction fraction) (hpoint : fraction ≠ ['.'])
    (hrest : ∀ c, rest.head? = some (.char c) → c.isDigit = false ∧ c ≠ '.') :
    fraction? (letters fraction ++ rest) = some (fraction, rest) := by
  cases hfraction with
  | none =>
      unfold fraction?
      split
      next tail heq =>
        have hhead : rest.head? = some (.char '.') := by simp [show rest = _ from heq]
        exact absurd rfl (hrest '.' hhead).2
      next => rfl
  | @point ds hdigits =>
      have hspan := digits_append hdigits fun c hc => (hrest c hc).1
      have hne : ds ≠ [] := by
        rintro rfl
        exact hpoint rfl
      simp [letters_cons, fraction?, hspan, hne]

theorem sign_append {cs ds : List Char} (hcs : cs = [] ∨ cs = ['+'] ∨ cs = ['-'])
    (hds : ∀ d ∈ ds, d.isDigit = true) (hne : ds ≠ []) (rest : List Piece) :
    sign (letters cs ++ (letters ds ++ rest)) = (cs, letters ds ++ rest) := by
  rcases hcs with rfl | rfl | rfl
  · cases ds with
    | nil => exact absurd rfl hne
    | cons d ds =>
        have hdigit := hds d (by simp)
        have hplus : d ≠ '+' := by
          rintro rfl
          cases hdigit
        have hminus : d ≠ '-' := by
          rintro rfl
          cases hdigit
        simp [letters, sign, hplus, hminus]
  · rfl
  · rfl

theorem exponent?_append {exponent : List Char} {rest : List Piece}
    (hexponent : Exponent exponent) (hrest : Ends rest) :
    exponent? (letters exponent ++ rest) = some (exponent, rest) := by
  cases hexponent with
  | none =>
      match rest with
      | [] => rfl
      | .broken byte :: rest => rfl
      | .char c :: rest =>
          obtain ⟨-, -, hlower, hupper⟩ := hrest c rfl
          simp [letters, exponent?, hlower, hupper]
  | @mark c sign digits hmark hsign hdigits hne =>
      have hspan := digits_append hdigits fun c hc => (hrest c hc).1
      have hscan := sign_append hsign hdigits hne rest
      simp [letters_cons, letters_append, exponent?, hmark, hscan, hspan, hne]

theorem head_exponent {exponent : List Char} {rest : List Piece}
    (hexponent : Exponent exponent) (hrest : Ends rest) {c : Char}
    (hc : (letters exponent ++ rest).head? = some (.char c)) : c.isDigit = false ∧ c ≠ '.' := by
  cases hexponent with
  | none => exact ⟨(hrest c hc).1, (hrest c hc).2.1⟩
  | mark hmark _ _ _ =>
      obtain rfl := Piece.char.inj (Option.some.inj hc)
      rcases hmark with rfl | rfl
      · decide
      · decide

theorem head_fraction {fraction : List Char} {rest : List Piece}
    (hfraction : Fraction fraction)
    (hrest : ∀ c, rest.head? = some (.char c) → c.isDigit = false) {c : Char}
    (hc : (letters fraction ++ rest).head? = some (.char c)) : c.isDigit = false := by
  cases hfraction with
  | none => exact hrest c hc
  | point _ =>
      obtain rfl := Piece.char.inj (Option.some.inj hc)
      rfl

theorem exists_whole_cons {whole : List Char} (hwhole : Whole whole) :
    ∃ c digits, whole = c :: digits ∧ c.isDigit = true := by
  cases hwhole with
  | zero => exact ⟨'0', [], rfl, rfl⟩
  | positive hdigit _ _ => exact ⟨_, _, rfl, hdigit⟩

theorem exists_number_cons {text : List Char} (htext : NumberText text) :
    ∃ c more, text = c :: more ∧ (c = '-' ∨ c.isDigit = true) := by
  obtain ⟨hsign, hwhole, -, -, -⟩ := htext
  obtain ⟨c, digits, rfl, hdigit⟩ := exists_whole_cons hwhole
  rcases hsign with rfl | rfl
  · exact ⟨c, _, rfl, .inr hdigit⟩
  · exact ⟨'-', _, rfl, .inl rfl⟩

theorem number?_append {text : List Char} {rest : List Piece} (htext : NumberText text)
    (hrest : Ends rest) : number? (letters text ++ rest) = some (text, rest) := by
  cases htext with
  | @mk sign whole fraction exponent hsign hwhole hfraction hpoint hexponent =>
      have hexponent? := exponent?_append hexponent hrest
      have hfraction? : fraction? (letters fraction ++ (letters exponent ++ rest)) = _ :=
        fraction?_append hfraction hpoint fun c => head_exponent hexponent hrest
      have hwhole? : whole? (letters whole ++
          (letters fraction ++ (letters exponent ++ rest))) = _ :=
        whole?_append hwhole fun c =>
          head_fraction hfraction fun c hc => (head_exponent hexponent hrest hc).1
      simp only [letters_append, List.append_assoc]
      rcases hsign with rfl | rfl
      · obtain ⟨c, digits, rfl, hdigit⟩ := exists_whole_cons hwhole
        have hminus : c ≠ '-' := by
          rintro rfl
          cases hdigit
        simp only [letters_cons, List.cons_append] at hwhole? ⊢
        simp [letters_nil, number?, hminus, hwhole?, hfraction?, hexponent?]
      · simp [letters_cons, letters_nil, number?, hwhole?, hfraction?, hexponent?]

/-! Strings. -/

theorem digitValue?_of_hexDigit {c : Char} {d : Nat} (hdigit : HexDigit c d) :
    d < 16 ∧ Number.digitValue? c = some d := by
  have hlower : ∀ d < 16, ("0123456789abcdef".toList[d]?).bind Number.digitValue? = some d := by
    decide
  have hupper : ∀ d < 16, ("0123456789ABCDEF".toList[d]?).bind Number.digitValue? = some d := by
    decide
  rcases hdigit with hdigit | hdigit
  · obtain ⟨hlt, -⟩ := List.getElem?_eq_some_iff.mp hdigit
    have hvalue := hlower d hlt
    rw [hdigit] at hvalue
    exact ⟨hlt, hvalue⟩
  · obtain ⟨hlt, -⟩ := List.getElem?_eq_some_iff.mp hdigit
    have hvalue := hupper d hlt
    rw [hdigit] at hvalue
    exact ⟨hlt, hvalue⟩

theorem hex4?_append {ds : List Char} {n : Nat} (hdigits : Hex4 ds n) (rest : List Piece) :
    hex4? (letters ds ++ rest) = some (n, rest) := by
  obtain ⟨ha, hb, hc, hd⟩ := hdigits
  obtain ⟨hi, ha⟩ := digitValue?_of_hexDigit ha
  obtain ⟨hj, hb⟩ := digitValue?_of_hexDigit hb
  obtain ⟨hk, hc⟩ := digitValue?_of_hexDigit hc
  obtain ⟨hl, hd⟩ := digitValue?_of_hexDigit hd
  simp [letters, hex4?, Number.isDigitOf, Number.valueOf, ha, hb, hc, hd, hi, hj, hk, hl]

theorem escaped?_short {mark c : Char} (hmark : (mark, c) ∈ shortEscapes) (rest : List Piece) :
    escaped? (.char mark :: rest) = some (c, rest) := by
  have hall : ∀ e ∈ shortEscapes, e.1 ≠ 'u' ∧ simpleEscape? e.1 = some e.2 := by decide
  obtain ⟨hne, hescape⟩ := hall _ hmark
  rw [escaped?, hescape]
  · rfl
  · exact hne

theorem escaped?_code {ds : List Char} {c : Char} (hdigits : Hex4 ds c.toNat)
    (rest : List Piece) : escaped? (.char 'u' :: (letters ds ++ rest)) = some (c, rest) := by
  have hscalar := Text.scalar_of_char c
  have hsurrogate : isSurrogate c.toNat = false := by
    simp [isSurrogate]
    omega
  simp [escaped?, hex4?_append hdigits, hsurrogate]

theorem escaped?_surrogates {high low : List Char} {h l : Nat} {c : Char}
    (hhigh : Hex4 high (0xD800 + h)) (hh : h < 0x400) (hlow : Hex4 low (0xDC00 + l))
    (hl : l < 0x400) (hc : c.toNat = 0x10000 + h * 0x400 + l) (rest : List Piece) :
    escaped? (.char 'u' :: (letters high ++ .char '\\' :: .char 'u' :: (letters low ++ rest))) =
      some (c, rest) := by
  have hsurrogate : isSurrogate (0xD800 + h) = true := by
    simp [isSurrogate]
    omega
  have hjoin : joinSurrogates (0xD800 + h) (0xDC00 + l) = c := by
    unfold joinSurrogates
    rw [if_pos (by simp; omega)]
    exact Text.ofNat_of_eq_toNat (by omega)
  simp [escaped?, hex4?_append hhigh, hex4?_append hlow, hsurrogate, hjoin]

theorem string?_char {text : List Char} {c : Char} (htext : CharText text c) {fuel : Nat}
    {ps tail rest : List Piece} (hmore : string? fuel ps = some (tail, rest)) :
    string? (fuel + 1) (letters text ++ ps) = some (.char c :: tail, rest) := by
  cases htext with
  | plain hcontrol hquote hescape =>
      have hprintable : ¬ c.toNat < 0x20 := by omega
      simp [letters, string?, hquote, hescape, Piece.isOf, hprintable, hmore]
  | short hmark => simp [letters, string?, escaped?_short hmark, hmore]
  | code hdigits =>
      simp [letters_cons, string?, escaped?_code hdigits, hmore]
  | surrogates hhigh hh hlow hl hc =>
      simp [letters_cons, letters_append, string?, escaped?_surrogates hhigh hh hlow hl hc, hmore]

theorem string?_append {text cs : List Char} (htext : StringText text cs) {fuel : Nat}
    (hfuel : text.length + 1 ≤ fuel) (rest : List Piece) :
    string? fuel (letters text ++ .char '"' :: rest) = some (letters cs, rest) := by
  induction htext generalizing fuel with
  | nil =>
      cases fuel with
      | zero => omega
      | succ fuel => rfl
  | @cons text more c cs hchar hrest ih =>
      have hpos : 0 < text.length := by
        cases hchar <;> simp
      cases fuel with
      | zero => omega
      | succ fuel =>
          rw [List.length_append] at hfuel
          rw [letters_append, List.append_assoc]
          exact string?_char hchar (ih (by omega))

/-! Values. -/

/-- A value that is read from its text with enough fuel, whatever follows it. -/
def Reads (text : List Char) (t : Term) : Prop :=
  ∀ fuel rest, text.length ≤ fuel → Ends rest →
    value? fuel (letters text ++ rest) = some (t, rest)

/-- A text that begins neither with a blank nor as the end of an array. -/
def Starts (text : List Char) : Prop :=
  ∃ c rest, text = c :: rest ∧ isSpace c = false ∧ c ≠ ']'

theorem isSpace_of_isDigit {c : Char} (hdigit : c.isDigit = true) : isSpace c = false := by
  rw [Bool.eq_false_iff]
  intro hspace
  simp only [isSpace, Bool.or_eq_true, decide_eq_true_iff] at hspace
  rcases hspace with ((rfl | rfl) | rfl) | rfl <;> cases hdigit

theorem starts_of_spells {text : List Char} {t : Term} (hspells : Spells text t) :
    Starts text := by
  cases hspells with
  | null => exact ⟨'n', _, rfl, rfl, by decide⟩
  | true => exact ⟨'t', _, rfl, rfl, by decide⟩
  | false => exact ⟨'f', _, rfl, rfl, by decide⟩
  | string => exact ⟨'"', _, rfl, rfl, by decide⟩
  | array => exact ⟨'[', _, rfl, rfl, by decide⟩
  | object => exact ⟨'\x7b', _, rfl, rfl, by decide⟩
  | number htext =>
      obtain ⟨c, more, rfl, hc⟩ := exists_number_cons htext
      refine ⟨c, more, rfl, ?_⟩
      rcases hc with rfl | hdigit
      · decide
      · exact ⟨isSpace_of_isDigit hdigit, by rintro rfl; cases hdigit⟩

theorem ends_nil : Ends [] := by
  intro c hc
  cases hc

theorem ends_of_head {c : Char} (hc : c.isDigit = false ∧ c ≠ '.' ∧ c ≠ 'e' ∧ c ≠ 'E')
    (rest : List Piece) : Ends (.char c :: rest) := by
  intro d hd
  obtain rfl := Piece.char.inj (Option.some.inj hd)
  exact hc

theorem ends_of_blank {cs : List Char} (hblank : Blank cs) {rest : List Piece}
    (hrest : Ends rest) : Ends (letters cs ++ rest) := by
  cases cs with
  | nil => exact hrest
  | cons c cs =>
      apply ends_of_head
      rcases hblank c (by simp) with rfl | rfl | rfl | rfl <;> decide

/-- An item whose value is read from its text. -/
structure Readable (item : Item) : Prop where
  padded : item.Padded
  starts : Starts item.core
  reads : Reads item.core item.term

namespace Readable

variable {item : Item}

theorem skipSpace_text (hitem : Readable item) (tail : List Piece) :
    skipSpace (letters item.text ++ tail) =
      letters item.core ++ (letters item.trail ++ tail) := by
  obtain ⟨c, core, hcore, hspace, -⟩ := hitem.starts
  rw [Item.text, letters_append, letters_append, List.append_assoc, List.append_assoc,
    skipSpace_blank hitem.padded.lead, hcore, letters_cons, List.cons_append,
    skipSpace_cons hspace]

theorem value?_core (hitem : Readable item) {fuel : Nat} (hfuel : item.text.length ≤ fuel)
    {c : Char} (hc : c = ',' ∨ c = ']' ∨ c = '\x7d') (tail : List Piece) :
    ∃ rest, value? fuel (letters item.core ++ (letters item.trail ++ .char c :: tail)) =
      some (item.term, rest) ∧ skipSpace rest = .char c :: tail := by
  have hends : Ends (.char c :: tail) := by
    apply ends_of_head
    rcases hc with rfl | rfl | rfl <;> decide
  have hspace : isSpace c = false := by
    rcases hc with rfl | rfl | rfl <;> rfl
  have hcore : item.core.length ≤ fuel := by
    simp only [Item.text, List.length_append] at hfuel
    omega
  refine ⟨_, hitem.reads fuel _ hcore (ends_of_blank hitem.padded.trail hends), ?_⟩
  rw [skipSpace_blank hitem.padded.trail, skipSpace_cons hspace]

end Readable

/-! Lists between brackets. -/

/-- A reader of lists takes a part up to the comma or bracket that follows it. -/
def Takes (list? : Nat → Bool → List Piece → Option (List α × List Piece)) (close : Char)
    (text : List Char) (x : α) : Prop :=
  ∀ fuel start c tail, text.length ≤ fuel → c = ',' ∨ c = close →
    list? (fuel + 1) start (skipSpace (letters text ++ .char c :: tail)) =
      if c = ',' then
        (list? fuel false (skipSpace tail)).map fun found => (x :: found.1, found.2)
      else some ([x], tail)

theorem takes_item {item : Item} (hitem : Readable item) :
    Takes items? ']' item.text item.term := by
  intro fuel start c tail hfuel hc
  have hmark : c = ',' ∨ c = ']' ∨ c = '\x7d' := hc.imp_right .inl
  obtain ⟨after, hvalue, hafter⟩ := hitem.value?_core hfuel hmark tail
  obtain ⟨d, core, hcore, -, hne⟩ := hitem.starts
  rw [hitem.skipSpace_text, items?]
  · simp only [hvalue, Option.bind_eq_bind, Option.bind_some, hafter]
    rcases hc with rfl | rfl
    · rw [if_pos rfl, Option.map_eq_bind]
      rfl
    · rfl
  · intro rest _ heq
    rw [hcore] at heq
    exact absurd (Piece.char.inj (List.cons.inj heq).1) hne

theorem takes_member {m : Member} (hm : m.Padded) (hitem : Readable m.item) :
    Takes members? '\x7d' m.text m.pair := by
  intro fuel start c tail hfuel hc
  have hmark : c = ',' ∨ c = ']' ∨ c = '\x7d' := hc.imp_right .inr
  have htext : skipSpace (letters m.text ++ .char c :: tail) =
      .char '"' :: (letters m.keyText ++ .char '"' ::
        (letters m.gap ++ .char ':' :: (letters m.item.text ++ .char c :: tail))) := by
    simp only [Member.text, letters_append, letters_cons, List.append_assoc, List.cons_append]
    rw [skipSpace_blank hm.lead, skipSpace_cons rfl]
  simp only [Member.text, List.length_append, List.length_cons] at hfuel
  have hshort : m.item.text.length ≤ fuel := by omega
  obtain ⟨after, hvalue, hafter⟩ := hitem.value?_core hshort hmark tail
  have hkey : string? fuel (letters m.keyText ++ .char '"' ::
      (letters m.gap ++ .char ':' :: (letters m.item.text ++ .char c :: tail))) = _ :=
    string?_append hm.key (by omega) _
  have hcolon : isSpace ':' = false := rfl
  rw [htext, members?]
  simp only [hkey, Option.bind_eq_bind, Option.bind_some, skipSpace_blank hm.gap,
    skipSpace_cons hcolon, hitem.skipSpace_text, hvalue, hafter, ofPieces_letters]
  rcases hc with rfl | rfl
  · rw [if_pos rfl, Option.map_eq_bind]
    rfl
  · rfl

theorem list?_intercalate {list? : Nat → Bool → List Piece → Option (List α × List Piece)}
    {close : Char} (hclose : close ≠ ',') {text : β → List Char} {value : β → α}
    {parts : List β} (hne : parts ≠ [])
    (hparts : ∀ part ∈ parts, Takes list? close (text part) (value part)) {fuel : Nat}
    (hfuel : ([','].intercalate (parts.map text)).length + 1 ≤ fuel) (start : Bool)
    (rest : List Piece) :
    list? fuel start (skipSpace
      (letters ([','].intercalate (parts.map text)) ++ .char close :: rest)) =
      some (parts.map value, rest) := by
  induction parts generalizing fuel start with
  | nil => exact absurd rfl hne
  | cons part parts ih =>
      obtain ⟨hpart, hmore⟩ := List.forall_mem_cons.mp hparts
      cases fuel with
      | zero => omega
      | succ fuel =>
          cases parts with
          | nil =>
              simp only [List.map_cons, List.map_nil, List.intercalate_singleton] at hfuel ⊢
              rw [hpart fuel start close rest (by omega) (.inr rfl), if_neg hclose]
          | cons next others =>
              -- The comma costs a character, as the part costs a step of fuel.
              have hrest := @ih (List.cons_ne_nil _ _) hmore fuel
              simp only [List.map_cons, List.intercalate_cons_cons, List.append_assoc,
                List.cons_append, List.nil_append, List.length_append, List.length_cons]
                at hfuel hrest ⊢
              rw [letters_append, letters_cons, List.append_assoc, List.cons_append,
                hpart fuel start ',' _ (by omega) (.inl rfl), if_pos rfl,
                hrest (by omega) false]
              rfl

theorem items?_separated {items : List Item} {inner : List Char}
    (hinner : Separated (items.map Item.text) inner)
    (hitems : ∀ item ∈ items, Readable item) {fuel : Nat} (hfuel : inner.length + 1 ≤ fuel)
    (rest : List Piece) :
    items? fuel true (skipSpace (letters inner ++ .char ']' :: rest)) =
      some (items.map Item.term, rest) := by
  rcases hinner with ⟨hnone, hblank⟩ | ⟨hne, rfl⟩
  · obtain rfl := List.map_eq_nil_iff.mp hnone
    rw [skipSpace_blank hblank, skipSpace_cons rfl]
    cases fuel with
    | zero => omega
    | succ fuel => rfl
  · exact list?_intercalate (by decide) (by simpa using hne)
      (fun item hitem => takes_item (hitems item hitem)) hfuel true rest

theorem members?_separated {members : List Member} {inner : List Char}
    (hinner : Separated (members.map Member.text) inner)
    (hpadded : ∀ m ∈ members, m.Padded) (hmembers : ∀ m ∈ members, Readable m.item)
    {fuel : Nat} (hfuel : inner.length + 1 ≤ fuel) (rest : List Piece) :
    members? fuel true (skipSpace (letters inner ++ .char '\x7d' :: rest)) =
      some (members.map Member.pair, rest) := by
  rcases hinner with ⟨hnone, hblank⟩ | ⟨hne, rfl⟩
  · obtain rfl := List.map_eq_nil_iff.mp hnone
    rw [skipSpace_blank hblank, skipSpace_cons rfl]
    cases fuel with
    | zero => omega
    | succ fuel => rfl
  · exact list?_intercalate (by decide) (by simpa using hne)
      (fun m hm => takes_member (hpadded m hm) (hmembers m hm)) hfuel true rest

/-! Every text of the grammar. -/

theorem value?_number {text : List Char} (htext : NumberText text) (fuel : Nat)
    {rest : List Piece} (hrest : Ends rest) :
    value? (fuel + 1) (letters text ++ rest) = some (.number (String.ofList text), rest) := by
  have hnumber := number?_append htext hrest
  obtain ⟨c, more, rfl, hc⟩ := exists_number_cons htext
  have hmarks : ∀ d ∈ ['"', '[', '\x7b', 't', 'f', 'n'], d ≠ '-' ∧ d.isDigit = false := by
    simp
  have hother : ∀ d ∈ ['"', '[', '\x7b', 't', 'f', 'n'], c ≠ d := by
    rintro d hd rfl
    obtain ⟨hminus, hdigit⟩ := hmarks c hd
    rcases hc with hc | hc
    · exact hminus hc
    · simp [hdigit] at hc
  rw [letters_cons, List.cons_append] at hnumber ⊢
  rw [value?, hnumber]
  · rfl
  all_goals
    intro tail heq
    exact hother _ (by decide) (Piece.char.inj (List.cons.inj heq).1)

theorem reads_of_succ {text : List Char} {t : Term} (hne : text ≠ [])
    (hread : ∀ fuel rest, text.length ≤ fuel + 1 → Ends rest →
      value? (fuel + 1) (letters text ++ rest) = some (t, rest)) : Reads text t := by
  intro fuel rest hfuel hrest
  cases fuel with
  | zero => exact absurd (List.length_eq_zero_iff.mp (Nat.le_zero.mp hfuel)) hne
  | succ fuel => exact hread fuel rest hfuel hrest

/-- What the grammar derives is read as the value that it stands for. -/
theorem reads_of_spells {text : List Char} {t : Term} (hspells : Spells text t) :
    Reads text t := by
  induction hspells with
  | null => exact reads_of_succ (by decide) fun fuel rest _ _ => rfl
  | true => exact reads_of_succ (by decide) fun fuel rest _ _ => rfl
  | false => exact reads_of_succ (by decide) fun fuel rest _ _ => rfl
  | number htext =>
      obtain ⟨c, more, rfl, -⟩ := exists_number_cons htext
      exact reads_of_succ (List.cons_ne_nil _ _) fun fuel rest _ => value?_number htext fuel
  | string htext =>
      refine reads_of_succ (List.cons_ne_nil _ _) fun fuel rest hfuel _ => ?_
      simp only [List.length_cons, List.length_append, List.length_nil] at hfuel
      rw [letters_enclosed, value?, string?_append htext (by omega)]
      simp [ofPieces_letters]
  | @array items inner hinner hpadded hitems ih =>
      refine reads_of_succ (List.cons_ne_nil _ _) fun fuel rest hfuel _ => ?_
      have hreadable : ∀ item ∈ items, Readable item := fun item hitem =>
        ⟨hpadded item hitem, starts_of_spells (hitems item hitem), ih item hitem⟩
      have hslice := slice_letters ('[' :: (inner ++ [']'])) rest
      simp only [List.length_cons, List.length_append, List.length_nil] at hfuel
      rw [letters_enclosed] at hslice ⊢
      rw [value?, items?_separated hinner hreadable (by omega) rest]
      simp [hslice]
  | @object members inner hinner hpadded hmembers ih =>
      refine reads_of_succ (List.cons_ne_nil _ _) fun fuel rest hfuel _ => ?_
      have hreadable : ∀ m ∈ members, Readable m.item := fun m hm =>
        ⟨(hpadded m hm).item, starts_of_spells (hmembers m hm), ih m hm⟩
      have hslice := slice_letters ('\x7b' :: (inner ++ ['\x7d'])) rest
      simp only [List.length_cons, List.length_append, List.length_nil] at hfuel
      rw [letters_enclosed] at hslice ⊢
      rw [value?, members?_separated hinner hpadded hreadable (by omega) rest]
      simp [hslice]

end Reader

/-- Every JSON text is read, as the value that it stands for. -/
theorem Term.ofBytes?_of_document {cs : List Char} {t : Term} (hdocument : Document cs t) :
    Term.ofBytes? (Text.ofChars cs) = some t := by
  obtain ⟨item, rfl, hpadded, hspells, rfl⟩ := hdocument
  have hitem : Reader.Readable item :=
    ⟨hpadded, Reader.starts_of_spells hspells, Reader.reads_of_spells hspells⟩
  have hpieces : Text.pieces (Text.ofChars item.text) = Reader.letters item.text :=
    Text.pieces_ofChars item.text
  have hskip := hitem.skipSpace_text []
  have hends := Reader.ends_of_blank hpadded.trail Reader.ends_nil
  have htrail := Reader.skipSpace_blank hpadded.trail []
  rw [List.append_nil] at hends htrail
  rw [List.append_nil, List.append_nil, ← Reader.letters_append] at hskip
  have hfuel : item.core.length ≤ (Reader.letters (item.core ++ item.trail)).length + 1 := by
    rw [Reader.letters, List.length_map, List.length_append]
    omega
  have hvalue := hitem.reads _ _ hfuel hends
  rw [← Reader.letters_append] at hvalue
  rw [Term.ofBytes?, hpieces, Term.ofPieces?]
  simp only [hskip, hvalue, Option.bind_eq_bind, Option.bind_some, htrail]
  rfl

theorem Syntax.Document.eq {cs : List Char} {t u : Term} (ht : Document cs t)
    (hu : Document cs u) : t = u :=
  Option.some.inj ((Term.ofBytes?_of_document ht).symm.trans (Term.ofBytes?_of_document hu))

theorem Syntax.Document.ne_nil {cs : List Char} {t : Term} (ht : Document cs t) : cs ≠ [] := by
  rintro rfl
  have hread := Term.ofBytes?_of_document ht
  cases hread

end ScriptTree.Json
