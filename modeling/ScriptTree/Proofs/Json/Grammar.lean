import ScriptTree.Json.Term
import ScriptTree.Proofs.Js.Syntax.Terminal

/-!
The grammar of JSON texts, with the value that a text stands for. Every character of a
string may be written in several ways, and blanks may stand around every value, key and
mark.
-/

namespace ScriptTree.Json.Syntax

open Js.Syntax (Whole Fraction Exponent)

def Blank (cs : List Char) : Prop :=
  ∀ c ∈ cs, c = ' ' ∨ c = '\t' ∨ c = '\n' ∨ c = '\r'

/-- A number: a point has to be followed by a digit. -/
inductive NumberText : List Char → Prop
  | mk {sign whole fraction exponent : List Char} (hsign : sign = [] ∨ sign = ['-'])
      (hwhole : Whole whole) (hfraction : Fraction fraction) (hpoint : fraction ≠ ['.'])
      (hexponent : Exponent exponent) :
      NumberText (sign ++ whole ++ fraction ++ exponent)

/-! Strings. -/

def HexDigit (c : Char) (d : Nat) : Prop :=
  "0123456789abcdef".toList[d]? = some c ∨ "0123456789ABCDEF".toList[d]? = some c

inductive Hex4 : List Char → Nat → Prop
  | mk {a b c d : Char} {i j k l : Nat} (ha : HexDigit a i) (hb : HexDigit b j)
      (hc : HexDigit c k) (hd : HexDigit d l) :
      Hex4 [a, b, c, d] (((i * 16 + j) * 16 + k) * 16 + l)

/-- The marks that stand for a character after a backslash. -/
def shortEscapes : List (Char × Char) := [
  ('"', '"'), ('\\', '\\'), ('/', '/'), ('b', '\x08'), ('f', '\x0c'), ('n', '\n'),
  ('r', '\r'), ('t', '\t')]

/-- The ways to write a character in a string. -/
inductive CharText : List Char → Char → Prop
  | plain {c : Char} (hcontrol : 0x20 ≤ c.toNat) (hquote : c ≠ '"') (hescape : c ≠ '\\') :
      CharText [c] c
  | short {mark c : Char} (hmark : (mark, c) ∈ shortEscapes) : CharText ['\\', mark] c
  | code {digits : List Char} {c : Char} (hdigits : Hex4 digits c.toNat) :
      CharText ('\\' :: 'u' :: digits) c
  | surrogates {high low : List Char} {h l : Nat} {c : Char}
      (hhigh : Hex4 high (0xD800 + h)) (hh : h < 0x400) (hlow : Hex4 low (0xDC00 + l))
      (hl : l < 0x400) (hc : c.toNat = 0x10000 + h * 0x400 + l) :
      CharText ('\\' :: 'u' :: (high ++ '\\' :: 'u' :: low)) c

/-- The text of a string between its quotes. -/
inductive StringText : List Char → List Char → Prop
  | nil : StringText [] []
  | cons {text rest : List Char} {c : Char} {cs : List Char} (hchar : CharText text c)
      (hrest : StringText rest cs) : StringText (text ++ rest) (c :: cs)

/-! Values. -/

/-- A value in its text, with blanks around. -/
structure Item where
  lead : List Char
  core : List Char
  trail : List Char
  term : Term

/-- A key with its value; blanks may stand before the key and before the colon. -/
structure Member where
  lead : List Char
  keyText : List Char
  key : List Char
  gap : List Char
  item : Item

def Item.text (item : Item) : List Char := item.lead ++ (item.core ++ item.trail)

structure Item.Padded (item : Item) : Prop where
  lead : Blank item.lead
  trail : Blank item.trail

def Member.text (m : Member) : List Char :=
  m.lead ++ '"' :: (m.keyText ++ '"' :: (m.gap ++ ':' :: m.item.text))

structure Member.Padded (m : Member) : Prop where
  lead : Blank m.lead
  key : StringText m.keyText m.key
  gap : Blank m.gap
  item : m.item.Padded

def Member.pair (m : Member) : ByteString × Term := (Text.ofChars m.key, m.item.term)

/-- The text between two brackets: nothing but blanks, or parts with commas between. -/
def Separated (parts : List (List Char)) (inner : List Char) : Prop :=
  parts = [] ∧ Blank inner ∨ parts ≠ [] ∧ inner = [','].intercalate parts

/-- A text without blanks around it, and its value. -/
inductive Spells : List Char → Term → Prop
  | null : Spells "null".toList .null
  | true : Spells "true".toList (.boolean true)
  | false : Spells "false".toList (.boolean false)
  | number {text : List Char} (htext : NumberText text) :
      Spells text (.number (String.ofList text))
  | string {text cs : List Char} (htext : StringText text cs) :
      Spells ('"' :: (text ++ ['"'])) (.string (Text.ofChars cs))
  | array {items : List Item} {inner : List Char}
      (hinner : Separated (items.map Item.text) inner) (hpadded : ∀ item ∈ items, item.Padded)
      (hitems : ∀ item ∈ items, Spells item.core item.term) :
      Spells ('[' :: (inner ++ [']']))
        (.array (Text.ofChars ('[' :: (inner ++ [']']))) (items.map Item.term))
  | object {members : List Member} {inner : List Char}
      (hinner : Separated (members.map Member.text) inner)
      (hpadded : ∀ m ∈ members, m.Padded)
      (hmembers : ∀ m ∈ members, Spells m.item.core m.item.term) :
      Spells ('\x7b' :: (inner ++ ['\x7d']))
        (.object (Text.ofChars ('\x7b' :: (inner ++ ['\x7d']))) (members.map Member.pair))

/-- A text of a value; an array or object that is the whole text carries it to the end. -/
def Document (cs : List Char) (t : Term) : Prop :=
  ∃ item : Item, cs = item.text ∧ item.Padded ∧ Spells item.core item.term ∧
    t = Reader.extend ((item.core ++ item.trail).map .char) item.term

end ScriptTree.Json.Syntax
