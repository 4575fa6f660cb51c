import ScriptTree.Proofs.Json.Reader
import ScriptTree.Proofs.Script.Decode

/-!
Scripts in written form. Every script whose names are texts and whose numbers can be
written has JSON texts, and each of them is read as that script, however it is laid out
and its characters are written.
-/

namespace ScriptTree

open Json (Term)
open Json.Syntax

/-! Values that have a text. -/

namespace Json.Term

def Spelled (t : Term) : Prop := ∃ core, Spells core t

theorem exists_hexDigit {d : Nat} (hd : d < 16) : ∃ c, HexDigit c d :=
  ⟨_, .inl (List.getElem?_eq_getElem hd)⟩

theorem exists_hex4 {n : Nat} (hn : n < 0x10000) : ∃ digits, Hex4 digits n := by
  obtain ⟨a, ha⟩ := exists_hexDigit (d := n / 4096) (by omega)
  obtain ⟨b, hb⟩ := exists_hexDigit (d := n / 256 % 16) (by omega)
  obtain ⟨c, hc⟩ := exists_hexDigit (d := n / 16 % 16) (by omega)
  obtain ⟨d, hd⟩ := exists_hexDigit (d := n % 16) (by omega)
  have hvalue : ((n / 4096 * 16 + n / 256 % 16) * 16 + n / 16 % 16) * 16 + n % 16 = n := by
    omega
  exact ⟨[a, b, c, d], hvalue ▸ .mk ha hb hc hd⟩

theorem exists_charText (c : Char) : ∃ text, CharText text c := by
  by_cases hplain : 0x20 ≤ c.toNat ∧ c ≠ '"' ∧ c ≠ '\\'
  · exact ⟨[c], .plain hplain.1 hplain.2.1 hplain.2.2⟩
  · have hlow : c.toNat < 0x10000 := by
      by_contra hhigh
      refine hplain ⟨by omega, ?_, ?_⟩
      · rintro rfl
        exact hhigh (by decide)
      · rintro rfl
        exact hhigh (by decide)
    obtain ⟨digits, hdigits⟩ := exists_hex4 hlow
    exact ⟨_, .code hdigits⟩

theorem exists_stringText (cs : List Char) : ∃ text, StringText text cs := by
  induction cs with
  | nil => exact ⟨[], .nil⟩
  | cons c cs ih =>
      obtain ⟨text, htext⟩ := exists_charText c
      obtain ⟨rest, hrest⟩ := ih
      exact ⟨text ++ rest, .cons htext hrest⟩

theorem spelled_string (cs : List Char) : Spelled (.string (Text.ofChars cs)) := by
  obtain ⟨text, htext⟩ := exists_stringText cs
  exact ⟨_, .string htext⟩

theorem spelled_boolean (value : Bool) : Spelled (.boolean value) := by
  cases value with
  | true => exact ⟨_, .true⟩
  | false => exact ⟨_, .false⟩

theorem exists_separated (parts : List (List Char)) : ∃ inner, Separated parts inner := by
  by_cases hparts : parts = []
  · exact ⟨[], .inl ⟨hparts, nofun⟩⟩
  · exact ⟨_, .inr ⟨hparts, rfl⟩⟩

theorem exists_items {terms : List Term} (hterms : ∀ t ∈ terms, t.Spelled) :
    ∃ items : List Item, items.map Item.term = terms ∧
      ∀ item ∈ items, item.Padded ∧ Spells item.core item.term := by
  induction terms with
  | nil => exact ⟨[], rfl, nofun⟩
  | cons t rest ih =>
      obtain ⟨⟨core, hcore⟩, hrest⟩ := List.forall_mem_cons.mp hterms
      obtain ⟨items, rfl, hitems⟩ := ih hrest
      exact ⟨⟨[], core, [], t⟩ :: items, rfl,
        List.forall_mem_cons.mpr ⟨⟨⟨nofun, nofun⟩, hcore⟩, hitems⟩⟩

theorem spelled_array {terms : List Term} (hterms : ∀ t ∈ terms, t.Spelled) :
    ∃ raw, Spelled (.array raw terms) := by
  obtain ⟨items, rfl, hitems⟩ := exists_items hterms
  obtain ⟨inner, hinner⟩ := exists_separated (items.map Item.text)
  exact ⟨_, _, .array hinner (fun item hitem => (hitems item hitem).1)
    fun item hitem => (hitems item hitem).2⟩

def fields (fs : List (String × Term)) : List (ByteString × Term) :=
  fs.map fun f => (Text.toBytes f.1, f.2)

theorem exists_members {fs : List (String × Term)} (hfs : ∀ f ∈ fs, f.2.Spelled) :
    ∃ members : List Member, members.map Member.pair = fields fs ∧
      ∀ m ∈ members, m.Padded ∧ Spells m.item.core m.item.term := by
  induction fs with
  | nil => exact ⟨[], rfl, nofun⟩
  | cons f rest ih =>
      obtain ⟨⟨core, hcore⟩, hrest⟩ := List.forall_mem_cons.mp hfs
      obtain ⟨members, hmembers, hall⟩ := ih hrest
      obtain ⟨keyText, hkey⟩ := exists_stringText f.1.toList
      refine ⟨⟨[], keyText, f.1.toList, [], ⟨[], core, [], f.2⟩⟩ :: members, ?_, ?_⟩
      · rw [List.map_cons, hmembers]
        rfl
      · exact List.forall_mem_cons.mpr
          ⟨⟨⟨nofun, hkey, nofun, ⟨nofun, nofun⟩⟩, hcore⟩, hall⟩

theorem spelled_object {fs : List (String × Term)} (hfs : ∀ f ∈ fs, f.2.Spelled) :
    ∃ raw, Spelled (.object raw (fields fs)) := by
  obtain ⟨members, hmembers, hall⟩ := exists_members hfs
  obtain ⟨inner, hinner⟩ := exists_separated (members.map Member.text)
  rw [← hmembers]
  exact ⟨_, _, .object hinner (fun m hm => (hall m hm).1) fun m hm => (hall m hm).2⟩

theorem document_of_spells {core : List Char} {t : Term} (hcore : Spells core t) :
    Document core t := by
  refine ⟨⟨[], core, [], t⟩, by simp [Item.text], ⟨nofun, nofun⟩, hcore, ?_⟩
  rw [List.append_nil]
  cases hcore with
  | null => rfl
  | true => rfl
  | false => rfl
  | number => rfl
  | string => rfl
  | array => exact congrArg (Term.array · _) (Reader.ofPieces_letters _).symm
  | object => exact congrArg (Term.object · _) (Reader.ofPieces_letters _).symm

theorem Spelled.document {t : Term} (ht : t.Spelled) : ∃ cs, Document cs t := by
  obtain ⟨core, hcore⟩ := ht
  exact ⟨core, document_of_spells hcore⟩

end Json.Term

namespace Decode

/-! Scripts that a spelled value stands for. -/

theorem exists_pairs {R : Term → α → Prop} {xs : List α}
    (hxs : ∀ x ∈ xs, ∃ t : Term, t.Spelled ∧ R t x) :
    ∃ pairs : List (Term × α), pairs.map Prod.snd = xs ∧
      (∀ t ∈ pairs.map Prod.fst, t.Spelled) ∧ ∀ pair ∈ pairs, R pair.1 pair.2 := by
  induction xs with
  | nil => exact ⟨[], rfl, nofun, nofun⟩
  | cons x rest ih =>
      obtain ⟨⟨t, hspelled, ht⟩, hrest⟩ := List.forall_mem_cons.mp hxs
      obtain ⟨pairs, rfl, hall, hpairs⟩ := ih hrest
      exact ⟨(t, x) :: pairs, rfl, List.forall_mem_cons.mpr ⟨hspelled, hall⟩,
        List.forall_mem_cons.mpr ⟨ht, hpairs⟩⟩

theorem field?_fields (fs : List (String × Term)) (name : String) :
    Members.field? (Term.fields fs) name = fs.lookup name := by
  induction fs with
  | nil => rfl
  | cons f rest ih =>
      have hkey : (Text.toBytes name == Text.toBytes f.1) = (name == f.1) := by
        rw [Bool.eq_iff_iff, beq_iff_eq, beq_iff_eq]
        exact ⟨Text.eq_of_toBytes, congrArg Text.toBytes⟩
      rw [Members.field?, Term.fields] at ih ⊢
      rw [List.map_cons, List.lookup_cons, List.lookup_cons, hkey, ih]

theorem first_fields {fs : List (String × Term)} {name : String} {t : Term}
    (ht : fs.lookup name = some t) : Members.First (Term.fields fs) name t :=
  field?_eq_some_iff.mp ((field?_fields fs name).trans ht)

theorem lacks_fields {fs : List (String × Term)} {name : String}
    (hname : fs.lookup name = none) : Members.Lacks (Term.fields fs) name :=
  field?_eq_none_iff.mp ((field?_fields fs name).trans hname)

theorem exists_representsParameter (name type : List Char) :
    ∃ t : Term, t.Spelled ∧ RepresentsParameter t ⟨Text.ofChars name, Text.ofChars type⟩ := by
  have hfields : ∀ f ∈ [("name", Term.string (Text.ofChars name)),
      ("type", Term.string (Text.ofChars type))], f.2.Spelled := by
    simp [Term.spelled_string]
  obtain ⟨raw, hspelled⟩ := Term.spelled_object hfields
  exact ⟨_, hspelled, .named (.inl (lacks_fields rfl)) (first_fields rfl)
    (.inr ⟨.string (Text.ofChars type), first_fields rfl, rfl⟩)⟩

theorem spelled_tagged (kind : Kind) {fs : List (String × Term)}
    (hfs : ∀ f ∈ fs, f.2.Spelled) :
    ∃ raw, Term.Spelled (.object raw
      (Term.fields (("_type", .string (Text.toBytes kind.tag)) :: fs))) :=
  Term.spelled_object (List.forall_mem_cons.mpr ⟨Term.spelled_string kind.tag.toList, hfs⟩)

theorem tagged_fields (kind : Kind) (fs : List (String × Term)) :
    Members.Tagged (Term.fields (("_type", .string (Text.toBytes kind.tag)) :: fs)) kind :=
  first_fields rfl

end Decode

namespace Node

/-- Scripts whose names are texts and whose numbers are read from some text. -/
inductive Writable : Node → Prop
  | boolean (value : Bool) : Writable (boolean value)
  | number {text : List Char} (htext : NumberText text) :
      Writable (number (Term.numberOf (String.ofList text)))
  | reference (name : List Char) : Writable (reference (Text.ofChars name))
  | operation {op : Operation} {operands : List Node} (hoperands : ∀ n ∈ operands, Writable n) :
      Writable (operation op operands)
  | function (name : List Char) {parameters : List Parameter} {body : Node}
      (hparameters : ∀ x ∈ parameters, ∃ name type : List Char,
        x = ⟨Text.ofChars name, Text.ofChars type⟩)
      (hbody : Writable body) : Writable (function (Text.ofChars name) parameters body)

/-- A JSON text of a script. -/
def Written (n : Node) (cs : List Char) : Prop :=
  ∃ t, Document cs t ∧ Decode.Represents t n

theorem exists_represents {n : Node} (hn : n.Writable) :
    ∃ t : Term, t.Spelled ∧ Decode.Represents t n := by
  induction hn with
  | boolean value =>
      have hfields : ∀ f ∈ [("value", Term.boolean value)], f.2.Spelled := by
        simp [Term.spelled_boolean]
      obtain ⟨raw, hspelled⟩ := Decode.spelled_tagged .boolean hfields
      exact ⟨_, hspelled, .boolean (Decode.tagged_fields .boolean _)
        (Decode.first_fields rfl)⟩
  | @number text htext =>
      have hfields : ∀ f ∈ [("value", Term.number (String.ofList text))], f.2.Spelled := by
        simpa using ⟨text, .number htext⟩
      obtain ⟨raw, hspelled⟩ := Decode.spelled_tagged .number hfields
      exact ⟨_, hspelled, .number (Decode.tagged_fields .number _)
        (Decode.first_fields rfl)⟩
  | reference name =>
      have hfields : ∀ f ∈ [("name", Term.string (Text.ofChars name))], f.2.Spelled := by
        simp [Term.spelled_string]
      obtain ⟨raw, hspelled⟩ := Decode.spelled_tagged .reference hfields
      exact ⟨_, hspelled, .reference (Decode.tagged_fields .reference _)
        (Decode.first_fields rfl)⟩
  | @operation op operands _ ih =>
      obtain ⟨items, rfl, hspelled, hitems⟩ := Decode.exists_pairs ih
      obtain ⟨raw, harray⟩ := Term.spelled_array hspelled
      have hfields : ∀ f ∈ [("children", Term.array raw (items.map Prod.fst))],
          f.2.Spelled := by
        simpa using harray
      obtain ⟨raw, hspelled⟩ := Decode.spelled_tagged (.operation op) hfields
      exact ⟨_, hspelled, .operation (Decode.tagged_fields (.operation op) _)
        (.array (Decode.first_fields rfl)) hitems⟩
  | @function name parameters body hparameters _ ih =>
      have hwritten : ∀ x ∈ parameters, ∃ t : Term, t.Spelled ∧ Decode.RepresentsParameter t x := by
        intro x hx
        obtain ⟨name, type, rfl⟩ := hparameters x hx
        exact Decode.exists_representsParameter name type
      obtain ⟨items, rfl, hspelled, hitems⟩ := Decode.exists_pairs hwritten
      obtain ⟨raw, harray⟩ := Term.spelled_array hspelled
      obtain ⟨inner, hinner, hbody⟩ := ih
      have hfields : ∀ f ∈ [("name", Term.string (Text.ofChars name)),
          ("parameters", .array raw (items.map Prod.fst)), ("body", inner)], f.2.Spelled := by
        simpa using ⟨Term.spelled_string name, harray, hinner⟩
      obtain ⟨raw, hspelled⟩ := Decode.spelled_tagged .function hfields
      exact ⟨_, hspelled, .function (Decode.tagged_fields .function _)
        (Decode.first_fields rfl)
        (.array (Decode.first_fields rfl)) hitems
        (Decode.first_fields rfl) hbody⟩

/-- A script has JSON texts, and each of them is read as the script. -/
theorem ofJsonText_of_written {n : Node} (hn : n.Writable) :
    (∃ cs, n.Written cs) ∧ ∀ cs, n.Written cs → ofJsonText (Text.ofChars cs) = .ok n := by
  constructor
  · obtain ⟨t, hspelled, hform⟩ := exists_represents hn
    obtain ⟨cs, hdocument⟩ := hspelled.document
    exact ⟨cs, t, hdocument, hform⟩
  · rintro cs ⟨t, hdocument, hform⟩
    rw [ofJsonText, Term.ofBytes?_of_document hdocument]
    exact Decode.node_of_represents hform

/-! A text with its keys out of order and one that is not read, with blanks and with
escapes in a key and in a string. -/

def escapedText : String :=
  "\n\x7b\"name\":\"\\uD83d\\ude00\", \"note\" : null,\"\\u005Ftype\":\"Reference\"\x7d "

def escapedMembers : List Member := [
  ⟨[], "name".toList, "name".toList, [],
    ⟨[], '"' :: ("\\uD83d\\ude00".toList ++ ['"']), [], .string (Text.toBytes "😀")⟩⟩,
  ⟨[' '], "note".toList, "note".toList, [' '], ⟨[' '], "null".toList, [], .null⟩⟩,
  ⟨[], "\\u005Ftype".toList, "_type".toList, [],
    ⟨[], '"' :: ("Reference".toList ++ ['"']), [], .string (Text.toBytes "Reference")⟩⟩]

theorem stringText_self {cs : List Char}
    (hcs : ∀ c ∈ cs, 0x20 ≤ c.toNat ∧ c ≠ '"' ∧ c ≠ '\\') : StringText cs cs := by
  induction cs with
  | nil => exact .nil
  | cons c cs ih =>
      obtain ⟨⟨hcontrol, hquote, hescape⟩, hrest⟩ := List.forall_mem_cons.mp hcs
      exact .cons (.plain hcontrol hquote hescape) (ih hrest)

theorem padded_escapedMembers : ∀ m ∈ escapedMembers, m.Padded := by
  have hnone : Blank [] := nofun
  have hspace : Blank [' '] := by simp [Blank]
  have hcode : Hex4 "005F".toList (((0 * 16 + 0) * 16 + 5) * 16 + 15) :=
    .mk (.inl rfl) (.inl rfl) (.inl rfl) (.inr rfl)
  have hmark : CharText "\\u005F".toList '_' := .code hcode
  have htype : StringText ("\\u005F".toList ++ "type".toList) "_type".toList :=
    .cons hmark (stringText_self (by simp))
  simp only [escapedMembers, List.forall_mem_cons]
  exact ⟨⟨hnone, stringText_self (by simp), hnone, ⟨hnone, hnone⟩⟩,
    ⟨hspace, stringText_self (by simp), hspace, ⟨hspace, hnone⟩⟩,
    ⟨hnone, htype, hnone, ⟨hnone, hnone⟩⟩, nofun⟩

theorem spells_escapedMembers : ∀ m ∈ escapedMembers, Spells m.item.core m.item.term := by
  have hhigh : Hex4 "D83d".toList (((13 * 16 + 8) * 16 + 3) * 16 + 13) :=
    .mk (.inr rfl) (.inl rfl) (.inl rfl) (.inl rfl)
  have hlow : Hex4 "de00".toList (((13 * 16 + 14) * 16 + 0) * 16 + 0) :=
    .mk (.inl rfl) (.inl rfl) (.inl rfl) (.inl rfl)
  have hface : CharText "\\uD83d\\ude00".toList '😀' :=
    .surrogates (h := 0x3d) (l := 0x200) hhigh (by decide) hlow (by decide) rfl
  simp only [escapedMembers, List.forall_mem_cons]
  exact ⟨.string (.cons hface .nil), .null, .string (stringText_self (by simp)), nofun⟩

theorem written_escapedText : (reference (Text.toBytes "😀")).Written escapedText.toList := by
  have hinner : Separated (escapedMembers.map Member.text) _ :=
    .inr ⟨by simp [escapedMembers], rfl⟩
  have hobject := Spells.object hinner padded_escapedMembers spells_escapedMembers
  have hpadded : Blank ['\n'] ∧ Blank [' '] := by simp [Blank]
  refine ⟨_, ⟨⟨['\n'], _, [' '], _⟩, ?_, ⟨hpadded.1, hpadded.2⟩, hobject, rfl⟩, ?_⟩
  · decide
  · exact .reference (Decode.field?_eq_some_iff.mp rfl) (Decode.field?_eq_some_iff.mp rfl)

theorem ofJsonText_of_written_escapedText :
    (reference (Text.toBytes "😀")).Writable ∧
    (reference (Text.toBytes "😀")).Written escapedText.toList ∧
    ofJsonText (Text.toBytes escapedText) = .ok (reference (Text.toBytes "😀")) :=
  ⟨.reference ['😀'], written_escapedText,
    (ofJsonText_of_written (.reference ['😀'])).2 _ written_escapedText⟩

/-! The text of a literal without blanks: its kind and its value. -/

def quoted (cs : List Char) : List Char := '"' :: (cs ++ ['"'])

def literalText (kind : Kind) (value : List Char) : List Char :=
  '\x7b' :: (quoted "_type".toList ++ ':' :: (quoted kind.tag.toList ++ ',' ::
    (quoted "value".toList ++ ':' :: (value ++ ['\x7d']))))

def literalMembers (kind : Kind) (value : List Char) (t : Term) : List Member := [
  ⟨[], "_type".toList, "_type".toList, [],
    ⟨[], quoted kind.tag.toList, [], .string (Text.toBytes kind.tag)⟩⟩,
  ⟨[], "value".toList, "value".toList, [], ⟨[], value, [], t⟩⟩]

theorem stringText_tag (kind : Kind) : StringText kind.tag.toList kind.tag.toList := by
  apply stringText_self
  cases kind with
  | operation op => cases op <;> simp [Kind.tag, Operation.tag]
  | _ => simp [Kind.tag]

theorem document_literalText (kind : Kind) {value : List Char} {t : Term}
    (hvalue : Spells value t) : ∃ raw, Document (literalText kind value)
      (.object raw (Term.fields [("_type", .string (Text.toBytes kind.tag)), ("value", t)])) := by
  have hnone : Blank [] := nofun
  have hpadded : ∀ m ∈ literalMembers kind value t, m.Padded := by
    simp only [literalMembers, List.forall_mem_cons]
    exact ⟨⟨hnone, stringText_self (by simp), hnone, ⟨hnone, hnone⟩⟩,
      ⟨hnone, stringText_self (by simp), hnone, ⟨hnone, hnone⟩⟩, nofun⟩
  have hspells : ∀ m ∈ literalMembers kind value t, Spells m.item.core m.item.term := by
    simp only [literalMembers, List.forall_mem_cons]
    exact ⟨.string (stringText_tag kind), hvalue, nofun⟩
  have hinner : Separated ((literalMembers kind value t).map Member.text) _ :=
    .inr ⟨by simp [literalMembers], rfl⟩
  have hobject := Term.document_of_spells (.object hinner hpadded hspells)
  have htext : '\x7b' ::
      ([','].intercalate ((literalMembers kind value t).map Member.text) ++ ['\x7d']) =
        literalText kind value := by
    simp only [literalText, literalMembers, quoted, Item.text, Member.text, List.map_cons,
      List.map_nil, List.intercalate_cons_cons, List.intercalate_singleton, List.nil_append,
      List.append_nil, List.cons_append, List.append_assoc]
  rw [htext] at hobject
  exact ⟨_, hobject⟩

theorem ofJsonText_boolean (value : Bool) :
    ofJsonText (Text.ofChars (literalText .boolean (toString value).toList)) =
      .ok (boolean value) := by
  have hvalue : Spells (toString value).toList (.boolean value) := by
    cases value with
    | true => exact .true
    | false => exact .false
  obtain ⟨raw, hdocument⟩ := document_literalText .boolean hvalue
  rw [ofJsonText, Term.ofBytes?_of_document hdocument]
  exact Decode.node_of_represents
    (.boolean (Decode.tagged_fields .boolean _) (Decode.first_fields rfl))

theorem ofJsonText_number {text : List Char} (htext : NumberText text) :
    ofJsonText (Text.ofChars (literalText .number text)) =
      .ok (number (Term.numberOf (String.ofList text))) := by
  obtain ⟨raw, hdocument⟩ := document_literalText .number (.number htext)
  rw [ofJsonText, Term.ofBytes?_of_document hdocument]
  exact Decode.node_of_represents
    (.number (Decode.tagged_fields .number _) (Decode.first_fields rfl))

/-! A number beyond the range of the doubles is read as an infinity. -/

def overflowText : String := "\x7b\"_type\":\"LiteralNumber\",\"value\":1e999\x7d"

theorem ofJsonText_overflowText :
    ofJsonText overflowText = .ok (.number (Number.infinity false)) := by
  have hexponent : Js.Syntax.Exponent ('e' :: ([] ++ ['9', '9', '9'])) :=
    .mark (.inl rfl) (.inl rfl) (by simp) (by simp)
  have hwhole : Js.Syntax.Whole ['1'] := .positive (by simp) (by simp) (by simp)
  have htext : NumberText "1e999".toList := by
    simpa using NumberText.mk (.inl rfl) hwhole .none (by simp) hexponent
  have hvalue : Term.numberOf (String.ofList "1e999".toList) = Number.infinity false := by
    decide +kernel
  have hread := ofJsonText_number htext
  rw [hvalue] at hread
  exact hread

end Node

end ScriptTree
