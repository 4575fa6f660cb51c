import ScriptTree.Proofs.Js.Syntax.Spelling
import ScriptTree.Proofs.Yaml.Shared
import ScriptTree.Proofs.Yaml.Source
import ScriptTree.Proofs.Yaml.Stream

/-!
The marks of a shared text, and the tokens that its value has.
-/

namespace ScriptTree

namespace Json.Term

open Yaml (Lexeme)

mutual

def lexemes : Term → List Lexeme
  | null => [.scalar "null" .plain]
  | boolean b => [.scalar (if b then "true" else "false") .plain]
  | number text => [.scalar text .plain]
  | string s => [.scalar s.text .doubleQuoted]
  | array _ items =>
    .flowSequenceStart :: ([Lexeme.flowEntry].intercalate (itemLexemes items) ++
      [.flowSequenceEnd])
  | object _ members =>
    .flowMappingStart :: ([Lexeme.flowEntry].intercalate (memberLexemes members) ++
      [.flowMappingEnd])

def itemLexemes : List Term → List (List Lexeme)
  | [] => []
  | t :: rest => lexemes t :: itemLexemes rest

def memberLexemes : List (ByteString × Term) → List (List Lexeme)
  | [] => []
  | (key, t) :: rest =>
    (.key :: .scalar key.text .doubleQuoted :: .value :: lexemes t) :: memberLexemes rest

end

def pairLexemes (pair : ByteString × Term) : List Lexeme :=
  .key :: .scalar pair.1.text .doubleQuoted :: .value :: lexemes pair.2

theorem itemLexemes_eq_map (items : List Term) : itemLexemes items = items.map lexemes := by
  induction items with
  | nil => rfl
  | cons t items ih => rw [itemLexemes, ih, List.map_cons]

theorem memberLexemes_eq_map (members : List (ByteString × Term)) :
    memberLexemes members = members.map pairLexemes := by
  induction members with
  | nil => rfl
  | cons m members ih => rw [memberLexemes, ih, List.map_cons, pairLexemes]

end Json.Term

theorem ByteString.text_ofChars (cs : List Char) :
    ByteString.text (Text.ofChars cs) = String.ofList cs := by
  rw [ByteString.text, Text.ofBytes, Text.chars_ofChars]

namespace Yaml

open Json.Syntax

/-- A text has marks with the given lexemes, inside of so many brackets. -/
def Marked (depth : Nat) (fresh : Bool) (text : List Char) (lexemes : List Lexeme) : Prop :=
  ∃ spots : Spots, spots.Runs depth fresh ∧ spots.text = text ∧ spots.lexemes = lexemes

def Closes (depth : Nat) (text : List Char) (lexemes : List Lexeme) : Prop :=
  ∃ gap mark rest, mark.isEnd = true ∧ Spots.Runs depth false ((gap, mark) :: rest) ∧
    Spots.text ((gap, mark) :: rest) = text ∧ Spots.lexemes ((gap, mark) :: rest) = lexemes

variable {depth : Nat} {fresh : Bool} {text lead trail : List Char} {lexemes : List Lexeme}

theorem Closes.marked (hcloses : Closes depth text lexemes) (fresh : Bool) :
    Marked depth fresh text lexemes := by
  obtain ⟨gap, mark, rest, hend, hruns, htext, hlexemes⟩ := hcloses
  refine ⟨_, ?_, htext, hlexemes⟩
  cases hruns with
  | closing hgap hrest => exact .closing hgap hrest
  | comma hgap hrest => exact .comma hgap hrest
  | opening => cases hend
  | quoted => cases hend
  | plain => cases hend

theorem Closes.exists_depth (hcloses : Closes depth text lexemes) : ∃ outer, depth = outer + 1 := by
  obtain ⟨gap, mark, rest, hend, hruns, -⟩ := hcloses
  cases hruns with
  | opening => cases hend
  | _ => exact ⟨_, rfl⟩

theorem Closes.blank (hcloses : Closes depth text lexemes) (htrail : Spaced trail) :
    Closes depth (trail ++ text) lexemes := by
  obtain ⟨gap, mark, rest, hend, hruns, rfl, rfl⟩ := hcloses
  refine ⟨trail ++ gap, mark, rest, hend, ?_, ?_, rfl⟩
  · cases hruns with
    | closing hgap hrest => exact .closing (htrail.append hgap) hrest
    | comma hgap hrest => exact .comma (htrail.append hgap) hrest
    | opening => cases hend
    | quoted => cases hend
    | plain => cases hend
  · simp [Spots.text_cons]

theorem marked_nil : Marked 0 fresh [] [] := ⟨[], .done, rfl, rfl⟩

theorem marked_opening (square : Bool) (hlead : Spaced lead) (hdepth : depth < Lexer.depthLimit)
    (hrest : Marked (depth + 1) true text lexemes) :
    Marked depth fresh (lead ++ ((Mark.opening square).text ++ text))
      ((Mark.opening square).lexemes ++ lexemes) := by
  obtain ⟨spots, hruns, rfl, rfl⟩ := hrest
  exact ⟨_, .opening hlead hdepth hruns, Spots.text_cons .., Spots.lexemes_cons ..⟩

theorem closes_closing (square : Bool) (hrest : Marked depth false text lexemes) :
    Closes (depth + 1) ((Mark.closing square).text ++ text)
      ((Mark.closing square).lexemes ++ lexemes) := by
  obtain ⟨spots, hruns, rfl, rfl⟩ := hrest
  exact ⟨[], _, _, rfl, .closing nofun hruns, Spots.text_cons .., Spots.lexemes_cons ..⟩

theorem closes_comma (hrest : Marked (depth + 1) true text lexemes) :
    Closes (depth + 1) (',' :: text) (.flowEntry :: lexemes) := by
  obtain ⟨spots, hruns, rfl, rfl⟩ := hrest
  exact ⟨[], _, _, rfl, .comma nofun hruns, Spots.text_cons .., Spots.lexemes_cons ..⟩

theorem marked_key {keyText key gap : List Char} (hlead : Spaced lead)
    (hstring : SharedString keyText key) (hgap : ∀ c ∈ gap, c = ' ')
    (hreach : keyText.length + 2 + gap.length ≤ keyReach)
    (hrest : Marked (depth + 1) false text lexemes) :
    Marked (depth + 1) true (lead ++ '"' :: (keyText ++ '"' :: (gap ++ ':' :: text)))
      (.key :: .scalar (String.ofList key) .doubleQuoted :: .value :: lexemes) := by
  obtain ⟨spots, hruns, rfl, rfl⟩ := hrest
  refine ⟨_, .key hlead hstring hgap hreach hruns, ?_, ?_⟩
  · simp [Spots.text_cons, Mark.text]
  · simp [Spots.lexemes_cons, Mark.lexemes]

theorem marked_quoted {string cs : List Char} (hlead : Spaced lead)
    (hstring : SharedString string cs) (hrest : Closes depth text lexemes) :
    Marked depth fresh (lead ++ ('"' :: (string ++ ['"']) ++ text))
      (.scalar (String.ofList cs) .doubleQuoted :: lexemes) := by
  obtain ⟨depth, rfl⟩ := hrest.exists_depth
  obtain ⟨spots, hruns, rfl, rfl⟩ := hrest.marked false
  exact ⟨_, .quoted hlead hstring hruns, Spots.text_cons .., Spots.lexemes_cons ..⟩

theorem marked_plain {word : List Char} (hlead : Spaced lead) (hword : Word word)
    (hrest : Closes depth text lexemes) :
    Marked depth fresh (lead ++ (word ++ text))
      (.scalar (String.ofList word) .plain :: lexemes) := by
  obtain ⟨depth, rfl⟩ := hrest.exists_depth
  obtain ⟨gap, mark, rest, hend, hruns, rfl, rfl⟩ := hrest
  have hgap : Spaced gap := by
    cases hruns with
    | closing hgap => exact hgap
    | comma hgap => exact hgap
    | opening => cases hend
    | quoted hgap => exact hgap
    | plain hgap => exact hgap
  exact ⟨_, .plain hlead hword hgap hend hruns, Spots.text_cons .., Spots.lexemes_cons ..⟩

theorem marked_intercalate {α : Type} {part : α → List Char} {value : α → List Lexeme}
    {parts : List α} (hne : parts ≠ [])
    (hparts : ∀ a ∈ parts, ∀ text lexemes, Closes (depth + 1) text lexemes →
      Marked (depth + 1) true (part a ++ text) (value a ++ lexemes))
    (hrest : Closes (depth + 1) text lexemes) :
    Marked (depth + 1) true ([','].intercalate (parts.map part) ++ text)
      ([Lexeme.flowEntry].intercalate (parts.map value) ++ lexemes) := by
  induction parts with
  | nil => exact absurd rfl hne
  | cons a parts ih =>
      obtain ⟨ha, hmore⟩ := List.forall_mem_cons.mp hparts
      cases parts with
      | nil => simpa using ha text lexemes hrest
      | cons next others =>
          have hcomma := closes_comma (ih (List.cons_ne_nil _ _) hmore)
          simpa using ha _ _ hcomma

theorem marked_bracket {α : Type} (square : Bool) {part : α → List Char}
    {value : α → List Lexeme} {parts : List α} {inner : List Char} (hlead : Spaced lead)
    (hdepth : depth < Lexer.depthLimit) (hinner : SpacedOut (parts.map part) inner)
    (hparts : ∀ a ∈ parts, ∀ text lexemes, Closes (depth + 1) text lexemes →
      Marked (depth + 1) true (part a ++ text) (value a ++ lexemes))
    (hrest : Marked depth false text lexemes) :
    Marked depth fresh
      (lead ++ ((Mark.opening square).text ++ (inner ++ ((Mark.closing square).text ++ text))))
      ((Mark.opening square).lexemes ++ ([Lexeme.flowEntry].intercalate (parts.map value) ++
        ((Mark.closing square).lexemes ++ lexemes))) := by
  have hclosing := closes_closing square hrest
  refine marked_opening square hlead hdepth ?_
  rcases hinner with ⟨hnone, hspaced⟩ | ⟨hne, rfl⟩
  · obtain rfl := List.map_eq_nil_iff.mp hnone
    exact (hclosing.blank hspaced).marked true
  · exact marked_intercalate (by simpa using hne) hparts hclosing

theorem isPlainChar_of_isDigit {x : Char} (hx : x.isDigit = true) : isPlainChar x = true := by
  have hne (y : Char) (hy : y.isDigit = false) : x ≠ y := by
    rintro rfl
    simp [hx] at hy
  have hblank := Lexing.blank_of_isDigit hx
  simp [isPlainChar, endsPlainInFlow, hblank, hne ':' (by decide), hne ',' (by decide),
    hne '?' (by decide), hne '[' (by decide), hne ']' (by decide), hne '\x7b' (by decide),
    hne '\x7d' (by decide)]

theorem mem_numberText {text : List Char} (htext : NumberText text) {x : Char} (hx : x ∈ text) :
    x.isDigit = true ∨ x ∈ ['.', 'e', 'E', '+', '-'] := by
  cases htext with
  | mk hsign hwhole hfraction _ hexponent =>
      rw [List.append_assoc, List.append_assoc, List.mem_append, ← List.append_assoc] at hx
      rcases hx with hx | hx
      · rcases hsign with rfl | rfl
        · cases hx
        · exact .inr (by simp_all)
      · exact Js.Syntax.mem_decimalLiteral ⟨hwhole, hfraction, hexponent⟩ hx

theorem word_of_numberText {text : List Char} (htext : NumberText text) : Word text := by
  have hmarks : ∀ y ∈ ['.', 'e', 'E', '+', '-'], isPlainChar y = true :=
    List.all_eq_true.mp (by decide)
  refine ⟨fun x hx => (mem_numberText htext hx).elim isPlainChar_of_isDigit (hmarks x), ?_⟩
  cases htext with
  | @mk sign whole fraction exponent hsign hwhole hfraction _ hexponent =>
      obtain ⟨d, digits, hcons, hdigit⟩ := Json.Reader.exists_whole_cons hwhole
      rcases hsign with rfl | rfl
      · refine ⟨d, _, by rw [hcons]; rfl, .inl ?_⟩
        simp [startsWord, hdigit]
      · exact ⟨'-', _, by rw [hcons]; rfl, .inr ⟨rfl, d, _, rfl, hdigit⟩⟩

/-- A value has its tokens, wherever a value may stand. -/
def Fits (bound : Nat) (core : List Char) (t : Json.Term) : Prop :=
  ∀ {depth : Nat} {fresh : Bool} {lead text : List Char} {lexemes : List Lexeme}, Spaced lead →
    depth + bound ≤ Lexer.depthLimit → Closes depth text lexemes →
      Marked depth fresh (lead ++ (core ++ text)) (t.lexemes ++ lexemes)

theorem marked_array {bound : Nat} {items : List Item} {inner : List Char} {raw : ByteString}
    (hinner : SpacedOut (items.map Item.text) inner) (hspaced : ∀ item ∈ items, item.Spaced)
    (hitems : ∀ item ∈ items, Fits bound item.core item.term) (hlead : Spaced lead)
    (hdepth : depth + bound < Lexer.depthLimit) (hrest : Marked depth false text lexemes) :
    Marked depth fresh (lead ++ ('[' :: (inner ++ [']']) ++ text))
      ((Json.Term.array raw (items.map Item.term)).lexemes ++ lexemes) := by
  have hparts : ∀ item ∈ items, ∀ text lexemes, Closes (depth + 1) text lexemes →
      Marked (depth + 1) true (item.text ++ text) (item.term.lexemes ++ lexemes) := by
    intro item hitem text lexemes hcloses
    have hblank := hcloses.blank (hspaced item hitem).trail
    simpa [Item.text] using hitems item hitem (hspaced item hitem).lead (by omega) hblank
  have hmarked : Marked _ fresh _ _ := marked_bracket true hlead (by omega) hinner hparts hrest
  simpa [Json.Term.lexemes, Json.Term.itemLexemes_eq_map, Mark.text, Mark.lexemes,
    Function.comp_def] using hmarked

theorem marked_object {bound : Nat} {members : List Member} {inner : List Char} {raw : ByteString}
    (hinner : SpacedOut (members.map Member.text) inner) (hspaced : ∀ m ∈ members, m.Spaced)
    (hmembers : ∀ m ∈ members, Fits bound m.item.core m.item.term) (hlead : Spaced lead)
    (hdepth : depth + bound < Lexer.depthLimit) (hrest : Marked depth false text lexemes) :
    Marked depth fresh (lead ++ ('\x7b' :: (inner ++ ['\x7d']) ++ text))
      ((Json.Term.object raw (members.map Member.pair)).lexemes ++ lexemes) := by
  have hparts : ∀ m ∈ members, ∀ text lexemes, Closes (depth + 1) text lexemes →
      Marked (depth + 1) true (m.text ++ text) (Json.Term.pairLexemes m.pair ++ lexemes) := by
    intro m hm text lexemes hcloses
    have hm' := hspaced m hm
    have hblank := hcloses.blank hm'.item.trail
    have hvalue : Marked _ false _ _ := hmembers m hm hm'.item.lead (by omega) hblank
    have hmarked := marked_key hm'.lead hm'.key hm'.gap hm'.reach hvalue
    simpa [Member.text, Item.text, Json.Term.pairLexemes, Member.pair,
      ByteString.text_ofChars] using hmarked
  have hmarked : Marked _ fresh _ _ := marked_bracket false hlead (by omega) hinner hparts hrest
  simpa [Json.Term.lexemes, Json.Term.memberLexemes_eq_map, Mark.text, Mark.lexemes,
    Function.comp_def] using hmarked

theorem fits_of_shared {bound : Nat} {core : List Char} {t : Json.Term}
    (hshared : Shared bound core t) : Fits bound core t := by
  intro depth fresh lead text lexemes hlead hdepth hrest
  induction hshared generalizing depth fresh lead text lexemes with
  | null => exact marked_plain hlead ⟨List.all_eq_true.mp (by decide), 'n', _, rfl, .inl rfl⟩ hrest
  | true => exact marked_plain hlead ⟨List.all_eq_true.mp (by decide), 't', _, rfl, .inl rfl⟩ hrest
  | false => exact marked_plain hlead ⟨List.all_eq_true.mp (by decide), 'f', _, rfl, .inl rfl⟩ hrest
  | number htext => exact marked_plain hlead (word_of_numberText htext.number) hrest
  | string htext =>
      have hmarked : Marked depth fresh _ _ := marked_quoted hlead htext hrest
      rw [← ByteString.text_ofChars] at hmarked
      exact hmarked
  | array hinner hspaced _ ih =>
      exact marked_array hinner hspaced ih hlead (by omega) (hrest.marked false)
  | object hinner hspaced _ _ _ ih =>
      exact marked_object hinner hspaced ih hlead (by omega) (hrest.marked false)

/-! The characters of a shared text, and where its tokens start. -/

/-- Characters that a text may hold wherever it is cut. -/
structure Fine (c : Char) : Prop where
  allowed : isAllowed c = true
  unmarked : c ≠ Cursor.byteOrderMark

theorem fine_of_printable {c : Char} (hlow : 0x20 ≤ c.toNat) (hhigh : c.toNat ≤ 0x7E) : Fine c := by
  refine ⟨by simp [isAllowed, hlow, hhigh], ?_⟩
  rintro rfl
  exact absurd hhigh (by decide)

theorem fine_of_spaced {text : List Char} (hspaced : Spaced text) : ∀ c ∈ text, Fine c := by
  intro c hc
  rcases hspaced c hc with rfl | rfl | rfl <;> exact ⟨by decide, by decide⟩

theorem fine_of_isDigit {c : Char} (hc : c.isDigit = true) : Fine c := by
  have hbounds : 48 ≤ c.toNat ∧ c.toNat ≤ 57 := Char.isDigit_iff_toNat.mp hc
  exact fine_of_printable (by omega) (by omega)

theorem fine_of_hexDigit {c : Char} {d : Nat} (hc : HexDigit c d) : Fine c := by
  have hall : ∀ x ∈ "0123456789abcdef".toList ++ "0123456789ABCDEF".toList,
      0x20 ≤ x.toNat ∧ x.toNat ≤ 0x7E := by simp
  have hmem : c ∈ "0123456789abcdef".toList ++ "0123456789ABCDEF".toList :=
    List.mem_append.mpr (hc.imp List.mem_of_getElem? List.mem_of_getElem?)
  exact fine_of_printable (hall c hmem).1 (hall c hmem).2

theorem fine_of_hex4 {digits : List Char} {n : Nat} (hdigits : Hex4 digits n) :
    ∀ c ∈ digits, Fine c := by
  cases hdigits with
  | mk ha hb hc hd =>
      simp only [List.forall_mem_cons]
      exact ⟨fine_of_hexDigit ha, fine_of_hexDigit hb, fine_of_hexDigit hc, fine_of_hexDigit hd,
        nofun⟩

theorem fine_of_sharedString {text cs : List Char} (hstring : SharedString text cs) :
    ∀ c ∈ text, Fine c := by
  induction hstring with
  | nil => nofun
  | cons hchar _ ih =>
      refine List.forall_mem_append.mpr ⟨?_, ih⟩
      cases hchar with
      | literal hliteral =>
          refine List.forall_mem_singleton.mpr ⟨hliteral.allowed, ?_⟩
          rintro rfl
          exact hliteral.unmarked (by decide)
      | @short mark c hmark =>
          have hall : ∀ escape ∈ shortEscapes, 0x20 ≤ escape.1.toNat ∧ escape.1.toNat ≤ 0x7E := by
            decide
          have hmark' := hall _ hmark
          simp only [List.forall_mem_cons]
          exact ⟨fine_of_printable (by decide) (by decide),
            fine_of_printable hmark'.1 hmark'.2, nofun⟩
      | code hdigits =>
          rw [List.forall_mem_cons, List.forall_mem_cons]
          exact ⟨fine_of_printable (by decide) (by decide),
            fine_of_printable (by decide) (by decide), fine_of_hex4 hdigits⟩

theorem fine_of_numberText {text : List Char} (htext : NumberText text) : ∀ c ∈ text, Fine c := by
  have hmarks : ∀ y ∈ ['.', 'e', 'E', '+', '-'], 0x20 ≤ y.toNat ∧ y.toNat ≤ 0x7E := by simp
  intro c hc
  rcases mem_numberText htext hc with hdigit | hmark
  · exact fine_of_isDigit hdigit
  · exact fine_of_printable (hmarks c hmark).1 (hmarks c hmark).2

theorem forall_mem_intercalate {p : Char → Prop} {sep : Char} (hsep : p sep)
    {parts : List (List Char)} (hparts : ∀ part ∈ parts, ∀ c ∈ part, p c) :
    ∀ c ∈ [sep].intercalate parts, p c := by
  induction parts with
  | nil => nofun
  | cons part parts ih =>
      obtain ⟨hpart, hmore⟩ := List.forall_mem_cons.mp hparts
      cases parts with
      | nil => simpa using hpart
      | cons next others =>
          rw [List.intercalate_cons_cons, List.forall_mem_append, List.forall_mem_append]
          exact ⟨⟨hpart, List.forall_mem_singleton.mpr hsep⟩, ih hmore⟩

theorem fine_of_spacedOut {parts : List (List Char)} {inner : List Char}
    (hinner : SpacedOut parts inner) (hparts : ∀ part ∈ parts, ∀ c ∈ part, Fine c) :
    ∀ c ∈ inner, Fine c := by
  rcases hinner with ⟨-, hspaced⟩ | ⟨-, rfl⟩
  · exact fine_of_spaced hspaced
  · exact forall_mem_intercalate (fine_of_printable (by decide) (by decide)) hparts

theorem fine_enclosed {inner : List Char} {opening closing : Char} (hinner : ∀ c ∈ inner, Fine c)
    (hopening : 0x20 ≤ opening.toNat ∧ opening.toNat ≤ 0x7E)
    (hclosing : 0x20 ≤ closing.toNat ∧ closing.toNat ≤ 0x7E) :
    ∀ c ∈ opening :: (inner ++ [closing]), Fine c := by
  rw [List.forall_mem_cons, List.forall_mem_append, List.forall_mem_singleton]
  exact ⟨fine_of_printable hopening.1 hopening.2, hinner, fine_of_printable hclosing.1 hclosing.2⟩

theorem fine_item {item : Item} (hspaced : item.Spaced) (hcore : ∀ c ∈ item.core, Fine c) :
    ∀ c ∈ item.text, Fine c := by
  rw [Item.text, List.forall_mem_append, List.forall_mem_append]
  exact ⟨fine_of_spaced hspaced.lead, hcore, fine_of_spaced hspaced.trail⟩

theorem fine_member {m : Member} (hspaced : m.Spaced) (hcore : ∀ c ∈ m.item.core, Fine c) :
    ∀ c ∈ m.text, Fine c := by
  have hquote : Fine '"' := fine_of_printable (by decide) (by decide)
  have hcolon : Fine ':' := fine_of_printable (by decide) (by decide)
  simp only [Member.text, List.forall_mem_append, List.forall_mem_cons]
  exact ⟨fine_of_spaced hspaced.lead, hquote, fine_of_sharedString hspaced.key, hquote,
    fine_of_spaced fun c hc => .inl (hspaced.gap c hc), hcolon, fine_item hspaced.item hcore⟩

theorem fine_of_shared {bound : Nat} {core : List Char} {t : Json.Term}
    (hshared : Shared bound core t) : ∀ c ∈ core, Fine c := by
  have hbracket : ∀ c ∈ ['[', ']', '\x7b', '\x7d', '"'], 0x20 ≤ c.toNat ∧ c.toNat ≤ 0x7E := by
    simp
  have hword : ∀ word ∈ ["null", "true", "false"], ∀ c ∈ word.toList,
      0x20 ≤ c.toNat ∧ c.toNat ≤ 0x7E := by
    simp
  induction hshared with
  | null | true | false =>
      intro c hc
      have hc' := hword _ (by simp) c hc
      exact fine_of_printable hc'.1 hc'.2
  | number htext => exact fine_of_numberText htext.number
  | string htext =>
      exact fine_enclosed (fine_of_sharedString htext) (hbracket _ (by simp)) (hbracket _ (by simp))
  | array hinner hspaced _ ih =>
      refine fine_enclosed (fine_of_spacedOut hinner ?_) (hbracket _ (by simp))
        (hbracket _ (by simp))
      exact List.forall_mem_map.mpr fun item hitem => fine_item (hspaced item hitem) (ih item hitem)
  | object hinner hspaced _ _ _ ih =>
      refine fine_enclosed (fine_of_spacedOut hinner ?_) (hbracket _ (by simp))
        (hbracket _ (by simp))
      exact List.forall_mem_map.mpr fun m hm => fine_member (hspaced m hm) (ih m hm)

theorem Lexer.sound_start {source : Source} (hdamage : source.damage = none)
    (hfine : ∀ c ∈ source.characters, Fine c) : (Lexer.start source).Sound := by
  refine ⟨⟨hdamage, rfl, fun hmem => (hfine _ hmem).unmarked rfl, Nat.le_refl _⟩, rfl, rfl, rfl, ?_⟩
  simp [Lexer.start]

theorem Spots.Runs.length_lexemes_le {spots : Spots} (hruns : spots.Runs depth fresh) :
    spots.lexemes.length ≤ spots.text.length := by
  induction hruns with
  | done => exact Nat.le_refl _
  | plain _ hword _ _ _ ih =>
      obtain ⟨x, more, rfl, -⟩ := hword.start
      rw [Spots.text_cons, Spots.lexemes_cons]
      simp only [Mark.text, Mark.lexemes, List.length_append, List.length_cons, List.length_nil]
      omega
  | key _ _ _ _ _ ih =>
      simp only [Spots.text_cons, Spots.lexemes_cons, Mark.text, Mark.lexemes, List.length_append,
        List.length_cons, List.length_nil] at ih ⊢
      omega
  | opening _ _ _ ih | closing _ _ ih | comma _ _ ih | quoted _ _ _ ih =>
      simp only [Spots.text_cons, Spots.lexemes_cons, Mark.text, Mark.lexemes, List.length_append,
        List.length_cons, List.length_nil] at ih ⊢
      omega

/-- The marks of a shared object. -/
theorem marked_of_shared_object {bound : Nat} {core : List Char} (raw : ByteString)
    {inner : ByteString} {members : List (ByteString × Json.Term)}
    (hshared : Shared bound core (.object inner members)) (hbound : bound ≤ Lexer.depthLimit)
    (hlead : Spaced lead) :
    Marked 0 true (lead ++ core) (Json.Term.object raw members).lexemes ∧
      ∃ tail, core = '\x7b' :: tail := by
  cases hshared with
  | object hinner hspaced _ _ hmembers =>
      have hnil : Marked 0 false [] [] := marked_nil
      have hmarked : Marked 0 true _ ((Json.Term.object raw _).lexemes ++ []) :=
        marked_object hinner hspaced (fun m hm => fits_of_shared (hmembers m hm)) hlead
          (by omega) hnil
      rw [List.append_nil, List.append_nil] at hmarked
      exact ⟨hmarked, _, rfl⟩

/-- Before anything is read of a shared text, the tokens of its value are to come. -/
theorem exists_awaits_of_document {cs : List Char} {raw : ByteString}
    {members : List (ByteString × Json.Term)}
    (hdocument : SharedDocument cs (.object raw members)) :
    ∃ trail, Spaced trail ∧
      (Json.Term.object raw members).lexemes.length ≤
        (Source.ofBytes (Text.ofChars cs)).characters.length ∧
      (Lexer.start (.ofBytes (Text.ofChars cs))).Awaits trail
        (Json.Term.object raw members).lexemes := by
  obtain ⟨item, rfl, hspaced, inner, hterm, hshared⟩ := hdocument.exists_object
  have hfine := fine_item hspaced (fine_of_shared hshared)
  rw [hterm] at hshared
  obtain ⟨⟨spots, hruns, htext, hlexemes⟩, tail, hcore⟩ :=
    marked_of_shared_object raw hshared (Nat.le_refl _) hspaced.lead
  have hitem : item.text = spots.text ++ item.trail := by
    rw [htext, Item.text, List.append_assoc]
  have hfirst : item.text.head?.all (·.toNat < 0x80) = true := by
    rw [Item.text, hcore]
    cases hlead : item.lead with
    | nil => rfl
    | cons c lead =>
        rcases hspaced.lead c (by rw [hlead]; exact List.mem_cons_self) with rfl | rfl | rfl <;> rfl
  obtain ⟨hcharacters, hdamage⟩ :=
    Source.ofBytes_ofChars (fun c hc => (hfine c hc).allowed) hfirst
  refine ⟨item.trail, hspaced.trail, ?_, _, _, .ready
    (Lexer.sound_start hdamage (by rwa [hcharacters])) (hcharacters.trans hitem) hruns
    (fun _ => rfl) (Nat.le_refl _) ?_, rfl⟩
  · rw [hcharacters, ← hlexemes, hitem, List.length_append]
    exact Nat.le_add_right_of_le hruns.length_lexemes_le
  · rw [hlexemes]
    rfl

end Yaml

end ScriptTree
