import ScriptTree.Json.Value
import ScriptTree.Proofs.Json.Grammar
import ScriptTree.Proofs.Number.Literal
import ScriptTree.Proofs.Text.Bytes

/-!
Written values are JSON texts: the compact form of a value whose numbers are all finite
spells that value, with the replacement character for every malformed byte.
-/

namespace ScriptTree

open Json.Syntax

/-! Numbers. -/

theorem Decimal.exists_unsigned (d : Decimal) (plain : Bool) :
    ∃ whole fraction exponent, Js.Syntax.Whole whole ∧ Js.Syntax.Fraction fraction ∧
      fraction ≠ ['.'] ∧ Js.Syntax.Exponent exponent ∧
      (if plain then d.positional else d.scientific 1).toList = whole ++ fraction ++ exponent := by
  cases plain with
  | true =>
      obtain ⟨whole, fraction, hwhole, hfraction, hpoint, htext⟩ := d.exists_positional
      exact ⟨whole, fraction, [], hwhole, hfraction, hpoint, .none, by simpa using htext⟩
  | false =>
      obtain ⟨c, fraction, hwhole, hfraction, hpoint, htext⟩ := d.exists_scientific_head 1
      obtain ⟨digits, hexponent, hne, hdigits⟩ := exists_exponentDigits 1 d.order.natAbs
      rw [hexponent] at htext
      refine ⟨[c], fraction, _, hwhole, hfraction, hpoint, ?_, htext⟩
      split
      · exact .mark (.inl rfl) (.inr (.inr rfl)) hdigits hne
      · exact .mark (.inl rfl) (.inr (.inl rfl)) hdigits hne

theorem Number.numberText_jsonForm {x : Number} (hfinite : x.isFinite = true) :
    NumberText x.jsonForm.toList := by
  rw [isFinite, decide_eq_true_iff] at hfinite
  have hnan : x.isNaN = false := by
    rw [isNaN, decide_eq_false (by omega), Bool.false_and]
  have hinfinite : x.isInfinite = false := by
    rw [isInfinite, decide_eq_false (by omega), Bool.false_and]
  obtain ⟨whole, fraction, exponent, hwhole, hfraction, hpoint, hexponent, htext⟩ :=
    x.shortest.exists_unsigned x.isPlain
  simp only [jsonForm, layOut, hnan, hinfinite, Bool.false_eq_true, if_false,
    String.toList_append, htext, ← List.append_assoc]
  refine .mk ?_ hwhole hfraction hpoint hexponent
  split
  · exact .inr rfl
  · exact .inl rfl

theorem Text.numberText_integer (n : Int) : NumberText (Text.integer n).toList := by
  have hwhole : Js.Syntax.Whole (Nat.toDigits 10 n.natAbs) := by
    by_cases hzero : n.natAbs = 0
    · rw [hzero, Nat.toDigits_zero]
      exact .zero
    · have hdigits : Js.Syntax.Whole (Nat.toDigits 10 n.natAbs ++ []) :=
        whole_append_of_ne_zero hzero nofun
      simpa using hdigits
  have hunsigned {sign : List Char} (hsign : sign = [] ∨ sign = ['-']) :
      NumberText (sign ++ Nat.toDigits 10 n.natAbs) := by
    simpa using NumberText.mk hsign hwhole .none (by simp) .none
  rw [Text.integer]
  split
  · simpa using hunsigned (.inr rfl)
  · simpa using hunsigned (.inl rfl)

namespace Json

/-! Strings. -/

theorem hexDigit_hexDigit (n : Nat) : HexDigit (Text.Quoted.hexDigit n) (n % 16) := by
  have hdigits : ∀ d < 16, "0123456789abcdef".toList[d]? = some d.digitChar := by decide
  exact .inl (hdigits _ (Nat.mod_lt _ (by decide)))

theorem hex4_hex {n : Nat} (hn : n < 0x10000) : Hex4 (Text.Quoted.hex 4 n) n := by
  have hvalue : ((n / 16 / 16 / 16 % 16 * 16 + n / 16 / 16 % 16) * 16 + n / 16 % 16) * 16 +
      n % 16 = n := by
    omega
  have hdigits := Hex4.mk (hexDigit_hexDigit (n / 16 / 16 / 16)) (hexDigit_hexDigit (n / 16 / 16))
    (hexDigit_hexDigit (n / 16)) (hexDigit_hexDigit n)
  rwa [hvalue] at hdigits

theorem charText_hex {c : Char} (hc : c.toNat < 0x10000) :
    CharText ('\\' :: 'u' :: Text.Quoted.hex 4 c.toNat) c :=
  .code (hex4_hex hc)

theorem charText_short {mark c d : Char} (hmark : (mark, d) ∈ shortEscapes)
    (hc : c.toNat = d.toNat) : CharText ['\\', mark] c :=
  Char.toNat_inj.mp hc ▸ .short hmark

theorem charText_escape (c : Char) : CharText (escape c) c := by
  -- the characters with marks of their own come first, as in the definition
  unfold escape
  split
  next hc => exact charText_short (by decide) (congrArg Char.toNat hc)
  next hquote =>
  split
  next hc => exact charText_short (by decide) (congrArg Char.toNat hc)
  next hbackslash =>
  split
  next hc => exact charText_short (by decide) (congrArg Char.toNat hc)
  split
  next hc => exact charText_short (by decide) (congrArg Char.toNat hc)
  split
  next hc => exact charText_short (by decide) (congrArg Char.toNat hc)
  split
  next hc => exact charText_short (d := '\x08') (by decide) hc
  split
  next hc => exact charText_short (d := '\x0c') (by decide) hc
  split
  next hmarked =>
    apply charText_hex
    simp only [Bool.or_eq_true, decide_eq_true_eq, or_assoc] at hmarked
    rcases hmarked with hlow | rfl | rfl | rfl | hseparator | hseparator
    · omega
    · decide
    · decide
    · decide
    · omega
    · omega
  next hmarked =>
    simp only [Bool.or_eq_true, decide_eq_true_eq, not_or] at hmarked
    exact .plain (by omega) hquote hbackslash

theorem charText_escapePiece (p : Text.Piece) : CharText (escapePiece p) p.toChar := by
  cases p with
  | char c => exact charText_escape c
  | broken _ => exact charText_hex (by decide)

theorem stringText_escaped (ps : List Text.Piece) :
    StringText (ps.flatMap escapePiece) (ps.map Text.Piece.toChar) := by
  induction ps with
  | nil => exact .nil
  | cons p ps ih => exact .cons (charText_escapePiece p) ih

theorem spells_writeString (s : ByteString) :
    Spells (writeString s).toList (.string (Text.ofChars (Text.chars s))) := by
  rw [writeString, String.toList_ofList]
  exact .string (stringText_escaped (Text.pieces s))

/-! Values. -/

namespace Value

mutual

/-- A value as it is read: malformed bytes are replaced, and arrays and objects have their
text. -/
def term : Value → Term
  | null => .null
  | boolean b => .boolean b
  | number x => .number x.jsonForm
  | integer n => .number (Text.integer n)
  | string s => .string (Text.ofChars (Text.chars s))
  | array items => .array (Text.toBytes (compact (array items))) (terms items)
  | object members => .object (Text.toBytes (compact (object members))) (memberTerms members)

def terms : List Value → List Term
  | [] => []
  | v :: rest => term v :: terms rest

def memberTerms : List (String × Value) → List (ByteString × Term)
  | [] => []
  | (key, v) :: rest => (Text.toBytes key, term v) :: memberTerms rest

end

def item (v : Value) : Item := ⟨[], v.compact.toList, [], v.term⟩

def member (m : String × Value) : Member :=
  ⟨[], m.1.toList.flatMap escape, m.1.toList, [], m.2.item⟩

theorem text_item (v : Value) : v.item.text = v.compact.toList := by
  simp [item, Item.text]

theorem padded_item (v : Value) : v.item.Padded := ⟨nofun, nofun⟩

theorem stringText_key (key : String) : StringText (key.toList.flatMap escape) key.toList := by
  have htext := stringText_escaped (key.toList.map .char)
  rwa [List.flatMap_map, List.map_map, show Text.Piece.toChar ∘ .char = id from rfl,
    List.map_id] at htext

theorem padded_member (m : String × Value) : (member m).Padded :=
  ⟨nofun, stringText_key m.1, nofun, padded_item m.2⟩

theorem writeString_key (key : String) :
    (writeString key).toList = '"' :: (key.toList.flatMap escape ++ ['"']) := by
  rw [writeString, String.toList_ofList, Text.toBytes, Text.pieces_ofChars, List.flatMap_map]
  rfl

theorem text_member (m : String × Value) :
    (member m).text = (writeString m.1 ++ ":" ++ m.2.compact).toList := by
  simp [member, Member.text, text_item, writeString_key]

theorem pair_member (m : String × Value) : (member m).pair = (Text.toBytes m.1, m.2.term) := rfl

theorem compactItems_eq_map (items : List Value) : compactItems items = items.map compact := by
  induction items with
  | nil => rfl
  | cons v rest ih => rw [compactItems, ih, List.map_cons]

theorem terms_eq_map (items : List Value) : terms items = items.map term := by
  induction items with
  | nil => rfl
  | cons v rest ih => rw [terms, ih, List.map_cons]

theorem compactMembers_eq_map (members : List (String × Value)) :
    compactMembers members = members.map fun m => writeString m.1 ++ ":" ++ m.2.compact := by
  induction members with
  | nil => rfl
  | cons m rest ih => rw [compactMembers, ih, List.map_cons]

theorem memberTerms_eq_map (members : List (String × Value)) :
    memberTerms members = members.map fun m => (Text.toBytes m.1, m.2.term) := by
  induction members with
  | nil => rfl
  | cons m rest ih => rw [memberTerms, ih, List.map_cons]

theorem unwritableItem?_eq_none_iff {items : List Value} :
    unwritableItem? items = none ↔ ∀ v ∈ items, v.unwritable? = none := by
  induction items with
  | nil => simp [unwritableItem?]
  | cons v rest ih => rw [unwritableItem?_cons, Option.or_eq_none_iff, ih, List.forall_mem_cons]

theorem unwritableMember?_eq_none_iff {members : List (String × Value)} :
    unwritableMember? members = none ↔ ∀ m ∈ members, m.2.unwritable? = none := by
  induction members with
  | nil => simp [unwritableMember?]
  | cons m rest ih => rw [unwritableMember?_cons, Option.or_eq_none_iff, ih, List.forall_mem_cons]

theorem separated_intercalate (parts : List String) :
    Separated (parts.map String.toList) (String.intercalate "," parts).toList := by
  rw [String.toList_intercalate]
  by_cases hparts : parts = []
  · exact .inl (by simp [hparts, Blank])
  · exact .inr ⟨by simpa using hparts, rfl⟩

/-- The compact form of a value without numbers that are not finite spells it. -/
theorem spells_compact {v : Value} (hwritable : v.unwritable? = none) :
    Spells v.compact.toList v.term := by
  induction v with
  | null => exact .null
  | boolean value =>
      cases value with
      | true => exact .true
      | false => exact .false
  | number x =>
      have hfinite : x.isFinite = true := by
        simpa [unwritable?] using hwritable
      simpa [compact, term] using Spells.number (Number.numberText_jsonForm hfinite)
  | integer n => simpa [compact, term] using Spells.number (Text.numberText_integer n)
  | string s => exact spells_writeString s
  | array items ih =>
      -- every part is the compact form of an item, with no blanks around it
      have hitems := unwritableItem?_eq_none_iff.mp hwritable
      have htexts : (items.map item).map Item.text = (items.map compact).map String.toList := by
        simp [text_item]
      have hspells := Spells.array (htexts ▸ separated_intercalate (items.map compact))
        (List.forall_mem_map.mpr fun v _ => padded_item v)
        (List.forall_mem_map.mpr fun v hv => ih v hv (hitems v hv))
      simpa [compact, term, compactItems_eq_map, terms_eq_map, Text.toBytes, item,
        Function.comp_def] using hspells
  | object members ih =>
      have hmembers := unwritableMember?_eq_none_iff.mp hwritable
      have htexts : (members.map member).map Member.text =
          (compactMembers members).map String.toList := by
        simp [text_member, compactMembers_eq_map]
      have hspells := Spells.object (htexts ▸ separated_intercalate (compactMembers members))
        (List.forall_mem_map.mpr fun m _ => padded_member m)
        (List.forall_mem_map.mpr fun m hm => ih m hm (hmembers m hm))
      simpa [compact, term, memberTerms_eq_map, Text.toBytes, pair_member,
        Function.comp_def] using hspells

theorem document_compact {v : Value} (hwritable : v.unwritable? = none) {trail : List Char}
    (htrail : Blank trail) :
    Document (v.compact.toList ++ trail)
      (Reader.extend ((v.compact.toList ++ trail).map .char) v.term) :=
  ⟨⟨[], v.compact.toList, trail, v.term⟩, rfl, ⟨nofun, htrail⟩, spells_compact hwritable, rfl⟩

theorem document_object {members : List (String × Value)}
    (hwritable : unwritableMember? members = none) :
    ∃ raw, Document ((object members).compact ++ "\n").toList
      (.object raw (memberTerms members)) := by
  have hbreak : Blank ['\n'] := by simp [Blank]
  have hdocument := document_compact (v := .object members) hwritable hbreak
  rw [term, Reader.extend] at hdocument
  exact ⟨_, by simpa using hdocument⟩

end Value

end Json

end ScriptTree
