import Mathlib.Algebra.Ring.Int.Defs
import ScriptTree.Proofs.Json.Grammar
import ScriptTree.Yaml.Token.Lexer

/-!
JSON texts in which everything means the same to a reader of YAML: strings hold the
characters of YAML that end no line, no blank is a tab, a key stands close to its colon and
on the same line, the keys of an object differ, and every number is finite and keeps its sign.
-/

namespace ScriptTree.Json.Syntax

structure Literal (c : Char) : Prop where
  control : 0x20 ≤ c.toNat
  quote : c ≠ '"'
  escape : c ≠ '\\'
  allowed : Yaml.isAllowed c = true
  unbroken : Yaml.isBreak c = false
  unmarked : c.toNat ≠ 0xFEFF

theorem literal_of_printable {c : Char} (hlow : 0x20 ≤ c.toNat) (hhigh : c.toNat ≤ 0x7E)
    (hquote : c ≠ '"') (hescape : c ≠ '\\') : Literal c := by
  have hbreaks : ∀ n ∈ [10, 13, 0x85, 0x2028, 0x2029, 0xFEFF], c.toNat ≠ n := by
    simp only [List.forall_mem_cons]
    refine ⟨?_, ?_, ?_, ?_, ?_, ?_, nofun⟩ <;> omega
  refine ⟨hlow, hquote, hescape, by simp [Yaml.isAllowed, hlow, hhigh], ?_, hbreaks _ (by simp)⟩
  have hline : c ≠ '\n' ∧ c ≠ '\r' := by
    constructor <;> rintro rfl <;> exact absurd hlow (by decide)
  simp [Yaml.isBreak, hline, hbreaks]

/-- The ways to write a character: a slash has no escape, and no pair of escapes stands for
one character. -/
inductive SharedChar : List Char → Char → Prop
  | literal {c : Char} (hliteral : Literal c) : SharedChar [c] c
  | short {mark c : Char} (hmark : (mark, c) ∈ shortEscapes) (hslash : mark ≠ '/') :
      SharedChar ['\\', mark] c
  | code {digits : List Char} {c : Char} (hdigits : Hex4 digits c.toNat) :
      SharedChar ('\\' :: 'u' :: digits) c

inductive SharedString : List Char → List Char → Prop
  | nil : SharedString [] []
  | cons {text rest : List Char} {c : Char} {cs : List Char} (hchar : SharedChar text c)
      (hrest : SharedString rest cs) : SharedString (text ++ rest) (c :: cs)

theorem sharedString_of_printable {cs : List Char}
    (hcs : ∀ c ∈ cs, 0x20 ≤ c.toNat ∧ c.toNat ≤ 0x7E ∧ c ≠ '"' ∧ c ≠ '\\') :
    SharedString cs cs := by
  induction cs with
  | nil => exact .nil
  | cons c cs ih =>
      obtain ⟨⟨hlow, hhigh, hquote, hescape⟩, hmore⟩ := List.forall_mem_cons.mp hcs
      exact .cons (.literal (literal_of_printable hlow hhigh hquote hescape)) (ih hmore)

/-- Blanks other than tabs. -/
def Spaced (cs : List Char) : Prop := ∀ c ∈ cs, c = ' ' ∨ c = '\n' ∨ c = '\r'

theorem Spaced.of_append (first : List Char) {second : List Char}
    (hspaced : Spaced (first ++ second)) : Spaced second :=
  fun x hx => hspaced x (List.mem_append_right _ hx)

theorem Spaced.append {first second : List Char} (hfirst : Spaced first) (hsecond : Spaced second) :
    Spaced (first ++ second) :=
  List.forall_mem_append.mpr ⟨hfirst, hsecond⟩

structure Item.Spaced (item : Item) : Prop where
  lead : Syntax.Spaced item.lead
  trail : Syntax.Spaced item.trail

/-- The greatest distance of a colon from the start of its key. -/
def keyReach : Nat := 1024

structure Member.Spaced (m : Member) : Prop where
  lead : Syntax.Spaced m.lead
  key : SharedString m.keyText m.key
  gap : ∀ c ∈ m.gap, c = ' '
  reach : m.keyText.length + 2 + m.gap.length ≤ keyReach
  item : m.item.Spaced

def SpacedOut (parts : List (List Char)) (inner : List Char) : Prop :=
  parts = [] ∧ Spaced inner ∨ parts ≠ [] ∧ inner = [','].intercalate parts

/-- Numbers that keep their value: a zero without a point keeps no sign, and a number beyond the
doubles becomes a string. -/
structure SharedNumber (text : List Char) : Prop where
  number : NumberText text
  unsigned : text ≠ ['-', '0']
  finite : (Term.numberOf (String.ofList text)).isFinite = true

/-- Values that keep their plain text. An integer keeps its digits if it takes one word. -/
inductive Settled : Term → Prop
  | null : Settled .null
  | boolean {value : Bool} : Settled (.boolean value)
  | string {s : ByteString} : Settled (.string s)
  | integer {n : Int} (hlow : -2 ^ 63 ≤ n) (hhigh : n < 2 ^ 64) :
      Settled (.number (Text.integer n))
  | fraction {text : String} (htext : Term.isIntegerText text = false) : Settled (.number text)

/-- A text with its value and a bound on its nesting. -/
inductive Shared : Nat → List Char → Term → Prop
  | null {depth : Nat} : Shared depth "null".toList .null
  | true {depth : Nat} : Shared depth "true".toList (.boolean true)
  | false {depth : Nat} : Shared depth "false".toList (.boolean false)
  | number {depth : Nat} {text : List Char} (htext : SharedNumber text) :
      Shared depth text (.number (String.ofList text))
  | string {depth : Nat} {text cs : List Char} (htext : SharedString text cs) :
      Shared depth ('"' :: (text ++ ['"'])) (.string (Text.ofChars cs))
  | array {depth : Nat} {items : List Item} {inner : List Char}
      (hinner : SpacedOut (items.map Item.text) inner) (hspaced : ∀ item ∈ items, item.Spaced)
      (hitems : ∀ item ∈ items, Shared depth item.core item.term) :
      Shared (depth + 1) ('[' :: (inner ++ [']']))
        (.array (Text.ofChars ('[' :: (inner ++ [']']))) (items.map Item.term))
  | object {depth : Nat} {members : List Member} {inner : List Char}
      (hinner : SpacedOut (members.map Member.text) inner)
      (hspaced : ∀ m ∈ members, m.Spaced) (hkeys : (members.map Member.key).Nodup)
      (htypes : ∀ m ∈ members, m.key = "type".toList → Settled m.item.term)
      (hmembers : ∀ m ∈ members, Shared depth m.item.core m.item.term) :
      Shared (depth + 1) ('\x7b' :: (inner ++ ['\x7d']))
        (.object (Text.ofChars ('\x7b' :: (inner ++ ['\x7d']))) (members.map Member.pair))

/-- A whole text, with blanks around its value. -/
def SharedDocument (cs : List Char) (t : Term) : Prop :=
  ∃ item : Item, cs = item.text ∧ item.Spaced ∧ Shared Yaml.Lexer.depthLimit item.core item.term ∧
    t = Reader.extend ((item.core ++ item.trail).map .char) item.term

/-! Such a text is a JSON text. -/

theorem SharedChar.charText {text : List Char} {c : Char} (hchar : SharedChar text c) :
    CharText text c := by
  cases hchar with
  | literal hliteral => exact .plain hliteral.control hliteral.quote hliteral.escape
  | short hmark => exact .short hmark
  | code hdigits => exact .code hdigits

theorem SharedString.stringText {text cs : List Char} (hstring : SharedString text cs) :
    StringText text cs := by
  induction hstring with
  | nil => exact .nil
  | cons hchar _ ih => exact .cons hchar.charText ih

theorem Spaced.blank {cs : List Char} (hspaced : Spaced cs) : Blank cs := by
  intro c hc
  rcases hspaced c hc with h | h | h
  · exact .inl h
  · exact .inr (.inr (.inl h))
  · exact .inr (.inr (.inr h))

theorem Item.Spaced.padded {item : Item} (hspaced : item.Spaced) : item.Padded :=
  ⟨hspaced.lead.blank, hspaced.trail.blank⟩

theorem Member.Spaced.padded {m : Member} (hspaced : m.Spaced) : m.Padded :=
  ⟨hspaced.lead.blank, hspaced.key.stringText, fun c hc => .inl (hspaced.gap c hc),
    hspaced.item.padded⟩

theorem SpacedOut.separated {parts : List (List Char)} {inner : List Char}
    (hinner : SpacedOut parts inner) : Separated parts inner :=
  hinner.imp_left fun h => ⟨h.1, h.2.blank⟩

theorem Shared.spells {depth : Nat} {text : List Char} {t : Term} (hshared : Shared depth text t) :
    Spells text t := by
  induction hshared with
  | null => exact .null
  | true => exact .true
  | false => exact .false
  | number htext => exact .number htext.number
  | string htext => exact .string htext.stringText
  | array hinner hspaced _ ih =>
      exact .array hinner.separated (fun item hitem => (hspaced item hitem).padded) ih
  | object hinner hspaced _ _ _ ih =>
      exact .object hinner.separated (fun m hm => (hspaced m hm).padded) ih

theorem SharedDocument.document {cs : List Char} {t : Term} (hdocument : SharedDocument cs t) :
    Document cs t := by
  obtain ⟨item, htext, hspaced, hshared, hterm⟩ := hdocument
  exact ⟨item, htext, hspaced.padded, hshared.spells, hterm⟩

/-- The object of a whole text, with another text of its own. -/
theorem SharedDocument.exists_object {cs : List Char} {raw : ByteString}
    {members : List (ByteString × Term)} (hdocument : SharedDocument cs (.object raw members)) :
    ∃ item : Item, cs = item.text ∧ item.Spaced ∧ ∃ inner,
      item.term = .object inner members ∧ Shared Yaml.Lexer.depthLimit item.core item.term := by
  obtain ⟨item, htext, hspaced, hshared, hterm⟩ := hdocument
  refine ⟨item, htext, hspaced, ?_⟩
  cases hitem : item.term with
  | object inner others =>
      rw [hitem] at hterm hshared
      obtain rfl := (Term.object.inj hterm).2
      exact ⟨inner, rfl, hshared⟩
  | null | boolean | number | string | array =>
      rw [hitem] at hterm
      cases hterm

end ScriptTree.Json.Syntax
