import Mathlib.Algebra.Ring.Nat
import Mathlib.Data.List.Basic
import ScriptTree.Proofs.Text.Bytes
import ScriptTree.Text.ByteString

/-!
Quoted text is read back. The escape of a piece says where it ends and which piece it was, so no two
texts have the same quoted form, malformed ones included.
-/

namespace ScriptTree

namespace Text.Quoted

/-! Hexadecimal digits. -/

def nibble (c : Char) : Nat := if c.isDigit then c.toNat - '0'.toNat else c.toNat - 'a'.toNat + 10

def hexValue (digits : List Char) : Nat := digits.foldl (fun n c => n * 16 + nibble c) 0

theorem nibble_hexDigit (n : Nat) : nibble (hexDigit n) = n % 16 := by
  have hdigits : ∀ d < 16, nibble d.digitChar = d := by decide
  exact hdigits _ (Nat.mod_lt _ (by decide))

theorem length_hex (width n : Nat) : (hex width n).length = width := by
  induction width generalizing n with
  | zero => rfl
  | succ width ih => rw [hex, List.length_append, ih, List.length_singleton]

theorem hexValue_hex (width n : Nat) : hexValue (hex width n) = n % 16 ^ width := by
  induction width generalizing n with
  | zero => exact (Nat.mod_one n).symm
  | succ width ih =>
      have hfront : hexValue (hex (width + 1) n) = hexValue (hex width (n / 16)) * 16 + n % 16 := by
        rw [hex, hexValue, List.foldl_append, ← hexValue, List.foldl_cons, List.foldl_nil,
          nibble_hexDigit]
      rw [hfront, ih, Nat.pow_succ', Nat.mod_mul]
      omega

theorem hexValue_take_hex {width n : Nat} (hn : n < 16 ^ width) (rest : List Char) :
    hexValue ((hex width n ++ rest).take width) = n := by
  rw [List.take_left' (length_hex width n), hexValue_hex, Nat.mod_eq_of_lt hn]

theorem drop_hex (width n : Nat) (rest : List Char) : (hex width n ++ rest).drop width = rest :=
  List.drop_left' (length_hex width n)

end Text.Quoted

namespace ByteString

open Text (Piece)
open Text.Quoted (hex hexValue hexValue_take_hex drop_hex)

/-! One piece. -/

def shortMarks : List (Char × Char) := [
  ('"', '"'), ('\\', '\\'), ('a', Char.ofNat 7), ('b', Char.ofNat 8), ('f', Char.ofNat 12),
  ('n', '\n'), ('r', '\r'), ('t', '\t'), ('v', Char.ofNat 11)]

/-- The escapes of a piece of well-formed or malformed text. -/
inductive Escapes : Piece → List Char → Prop
  | plain {c : Char} (hc : c ≠ '\\') : Escapes (.char c) [c]
  | short {mark c : Char} (hmark : (mark, c) ∈ shortMarks) : Escapes (.char c) ['\\', mark]
  | ascii {c : Char} (hc : c.toNat < 0x80) : Escapes (.char c) ('\\' :: 'x' :: hex 2 c.toNat)
  | broken {byte : UInt8} (hbyte : 0x80 ≤ byte.toNat) :
      Escapes (.broken byte) ('\\' :: 'x' :: hex 2 byte.toNat)
  | code4 {c : Char} (hc : c.toNat < 0x10000) : Escapes (.char c) ('\\' :: 'u' :: hex 4 c.toNat)
  | code8 {c : Char} : Escapes (.char c) ('\\' :: 'U' :: hex 8 c.toNat)

/-- The piece with an escape of two digits. -/
def pieceOfCode (n : Nat) : Piece :=
  if n < 0x80 then .char (Char.ofNat n) else .broken (UInt8.ofNat n)

/-- The first piece of an escaped text with what is behind it. -/
def unescape? : List Char → Option (Piece × List Char)
  | [] => none
  | c :: rest =>
    if c ≠ '\\' then some (.char c, rest)
    else
      match rest with
      | [] => none
      | mark :: rest =>
        if mark = 'x' then some (pieceOfCode (hexValue (rest.take 2)), rest.drop 2)
        else if mark = 'u' then some (.char (Char.ofNat (hexValue (rest.take 4))), rest.drop 4)
        else if mark = 'U' then some (.char (Char.ofNat (hexValue (rest.take 8))), rest.drop 8)
        else (shortMarks.lookup mark).map fun c => (.char c, rest)

theorem unescape?_append {p : Piece} {text : List Char} (hp : Escapes p text) (rest : List Char) :
    unescape? (text ++ rest) = some (p, rest) := by
  cases hp with
  | plain hc => exact if_pos hc
  | @short mark c hmark =>
      have hmarks : ∀ entry ∈ shortMarks, entry.1 ≠ 'x' ∧ entry.1 ≠ 'u' ∧ entry.1 ≠ 'U' ∧
          shortMarks.lookup entry.1 = some entry.2 := by decide
      obtain ⟨hx, hu, hU, hlookup⟩ := hmarks _ hmark
      simp [unescape?, hx, hu, hU, hlookup]
  | @ascii c hc =>
      have hvalue := hexValue_take_hex (show c.toNat < 16 ^ 2 by omega) rest
      simp [unescape?, hvalue, drop_hex, pieceOfCode, hc]
  | @broken byte hbyte =>
      have hvalue := hexValue_take_hex (show byte.toNat < 16 ^ 2 from byte.toNat_lt) rest
      simp [unescape?, hvalue, drop_hex, pieceOfCode, Nat.not_lt.mpr hbyte]
  | @code4 c hc =>
      have hvalue := hexValue_take_hex (show c.toNat < 16 ^ 4 from hc) rest
      simp [unescape?, hvalue, drop_hex]
  | @code8 c =>
      have hscalar := Text.scalar_of_char c
      have hvalue := hexValue_take_hex (show c.toNat < 16 ^ 8 by omega) rest
      simp [unescape?, hvalue, drop_hex]

theorem Escapes.ite {p : Prop} [Decidable p] {piece : Piece} {text other : List Char}
    (htext : p → Escapes piece text) (hother : ¬ p → Escapes piece other) :
    Escapes piece (if p then text else other) := by
  by_cases hp : p
  · rw [if_pos hp]
    exact htext hp
  · rw [if_neg hp]
    exact hother hp

theorem escapes_char (c : Char) : Escapes (.char c) (Text.Quoted.escape c) := by
  have hshort : ∀ mark n, (mark, Char.ofNat n) ∈ shortMarks → c.toNat = n →
      Escapes (.char c) ['\\', mark] := by
    intro mark n hmark hc
    rw [Text.ofNat_of_eq_toNat hc.symm] at hmark
    exact .short hmark
  -- the characters with letters of their own come first, as in the definition
  rw [Text.Quoted.escape]
  refine .ite (fun hquote => hshort '"' _ (by decide) (congrArg Char.toNat hquote)) fun _ => ?_
  refine .ite (fun heq => hshort '\\' _ (by decide) (congrArg Char.toNat heq)) fun hbackslash => ?_
  refine .ite (fun _ => .plain hbackslash) fun _ => ?_
  refine .ite (fun ha => hshort 'a' _ (by decide) ha) fun _ => ?_
  refine .ite (fun hb => hshort 'b' _ (by decide) hb) fun _ => ?_
  refine .ite (fun hf => hshort 'f' _ (by decide) hf) fun _ => ?_
  refine .ite (fun hn => hshort 'n' _ (by decide) (congrArg Char.toNat hn)) fun _ => ?_
  refine .ite (fun hr => hshort 'r' _ (by decide) (congrArg Char.toNat hr)) fun _ => ?_
  refine .ite (fun ht => hshort 't' _ (by decide) (congrArg Char.toNat ht)) fun _ => ?_
  refine .ite (fun hv => hshort 'v' _ (by decide) hv) fun _ => ?_
  refine .ite (fun hascii => .ascii ?_) fun _ => ?_
  · rw [Bool.or_eq_true, decide_eq_true_eq, decide_eq_true_eq] at hascii
    omega
  · exact .ite (fun hfour => .code4 hfour) fun _ => .code8

/-! Whole texts. -/

/-- A byte that starts no character is none of the ASCII characters. -/
theorem le_of_broken_mem_piecesAfter {before : List Piece} {fuel : Nat} {bytes : ByteString}
    {byte : UInt8} (hmem : .broken byte ∈ Text.piecesAfter before fuel bytes) :
    .broken byte ∈ before ∨ 0x80 ≤ byte.toNat := by
  induction fuel generalizing before bytes with
  | zero => simpa [Text.piecesAfter] using Or.inl hmem
  | succ fuel ih =>
      cases bytes with
      | nil => simpa [Text.piecesAfter] using Or.inl hmem
      | cons a rest =>
          rw [Text.piecesAfter] at hmem
          cases hfirst : Text.firstChar? (a :: rest) with
          | some found =>
              rw [hfirst] at hmem
              simpa using ih hmem
          | none =>
              rw [hfirst] at hmem
              have hbyte : 0x80 ≤ a.toNat := by
                refine Nat.le_of_not_lt fun hlt => ?_
                have hascii : Text.firstChar? (a :: rest) = some (Char.ofNat a.toNat, 1) :=
                  if_pos hlt
                cases hascii.symm.trans hfirst
              rcases ih hmem with hbefore | hle
              · rcases List.mem_cons.mp hbefore with hself | hbefore
                · rw [Piece.broken.inj hself]
                  exact .inr hbyte
                · exact .inl hbefore
              · exact .inr hle

theorem escapes_of_mem_pieces {s : ByteString} {p : Piece} (hp : p ∈ Text.pieces s) :
    Escapes p (escape p) := by
  cases p with
  | char c => exact escapes_char c
  | broken byte =>
      rcases le_of_broken_mem_piecesAfter hp with hnil | hbyte
      · cases hnil
      · exact .broken hbyte

theorem eq_of_flatMap_escape {ps qs : List Piece} (hps : ∀ p ∈ ps, Escapes p (escape p))
    (hqs : ∀ q ∈ qs, Escapes q (escape q)) (htext : ps.flatMap escape = qs.flatMap escape) :
    ps = qs := by
  induction ps generalizing qs with
  | nil =>
      cases qs with
      | nil => rfl
      | cons q qs =>
          have hread := unescape?_append (hqs q List.mem_cons_self) (qs.flatMap escape)
          rw [← List.flatMap_cons, ← htext] at hread
          cases hread
  | cons p ps ih =>
      rw [List.forall_mem_cons] at hps
      have hread := unescape?_append hps.1 (ps.flatMap escape)
      cases qs with
      | nil =>
          rw [← List.flatMap_cons, htext] at hread
          cases hread
      | cons q qs =>
          rw [List.forall_mem_cons] at hqs
          rw [← List.flatMap_cons, htext, List.flatMap_cons, unescape?_append hqs.1] at hread
          obtain ⟨rfl, hrest⟩ := Prod.mk.inj (Option.some.inj hread)
          rw [ih hps.2 hqs.2 hrest.symm]

theorem quote_injective : Function.Injective quote := by
  intro s t hquote
  have hbody : (Text.pieces s).flatMap escape = (Text.pieces t).flatMap escape := by
    simpa [quote, String.ofList_inj] using hquote
  have hpieces := eq_of_flatMap_escape (fun _ => escapes_of_mem_pieces)
    (fun _ => escapes_of_mem_pieces) hbody
  rw [← Text.ofPieces_pieces s, hpieces, Text.ofPieces_pieces]

end ByteString

end ScriptTree
