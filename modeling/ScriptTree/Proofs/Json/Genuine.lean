import ScriptTree.Json.Term
import ScriptTree.Proofs.Number.Literal
import ScriptTree.Proofs.Text.Bytes

/-!
The texts that arrays and objects carry. In a value that was read they begin with their
bracket, so no value but the string itself has the plain text of a parameter's tag.
-/

namespace ScriptTree.Json

open Text (Piece)
open Js.Syntax (DecimalLiteral)

/-- A text that begins with a character of ASCII, if with any. -/
def Opens (c : Char) (raw : ByteString) : Prop := ∀ b ∈ raw.head?, b = c.toUInt8

namespace Term

/-- A value in which every array and object carries a text that opens as one. -/
inductive Genuine : Term → Prop
  | null : Genuine null
  | boolean (value : Bool) : Genuine (boolean value)
  | number (text : String) : Genuine (number text)
  | string (value : ByteString) : Genuine (string value)
  | array {raw : ByteString} {items : List Term} (hraw : Opens '[' raw)
      (hitems : ∀ t ∈ items, Genuine t) : Genuine (array raw items)
  | object {raw : ByteString} {members : List (ByteString × Term)}
      (hraw : Opens '\x7b' raw) (hmembers : ∀ m ∈ members, Genuine m.2) :
      Genuine (object raw members)

theorem Genuine.of_lookup {members : List (ByteString × Term)} {key : ByteString} {t : Term}
    (hmembers : ∀ m ∈ members, Genuine m.2) (ht : members.lookup key = some t) :
    t.Genuine := by
  obtain ⟨before, after, rfl, -⟩ := List.lookup_eq_some_iff.mp ht
  exact hmembers (key, t) (by simp)

/-! Plain texts. -/

theorem head?_of_decimalLiteral {text : List Char} (htext : DecimalLiteral text) :
    ∃ c, text.head? = some c ∧ c.isDigit = true := by
  obtain ⟨hwhole, -, -⟩ := htext
  cases hwhole with
  | zero => exact ⟨'0', rfl, rfl⟩
  | positive hdigit _ _ => exact ⟨_, rfl, hdigit⟩

theorem head?_positional (x : Number) : x.positional.toList.head? ≠ some 'P' := by
  unfold Number.positional Number.layOut
  split
  · decide
  · split
    · split
      · decide
      · decide
    · split
      · simp
      · obtain ⟨c, hhead, hdigit⟩ :=
          head?_of_decimalLiteral x.shortest.decimalLiteral_positional
        intro hletter
        rw [String.toList_append, String.toList_empty, List.nil_append, hhead] at hletter
        rw [Option.some.inj hletter] at hdigit
        exact absurd hdigit (by decide)

theorem head?_of_isIntegerText {text : String} (htext : isIntegerText text = true) :
    text.toList.head? ≠ some 'P' := by
  intro hhead
  obtain ⟨rest, hrest⟩ := List.head?_eq_some_iff.mp hhead
  simp [isIntegerText, hrest, Number.isDecimalDigit] at htext

theorem toBytes_ne_parameter {text : String} (hhead : text.toList.head? ≠ some 'P') :
    Text.toBytes text ≠ Text.toBytes "Parameter" := by
  intro hbytes
  rw [Text.eq_of_toBytes hbytes] at hhead
  exact hhead rfl

theorem ne_parameter_of_opens {c : Char} {raw : ByteString} (hraw : Opens c raw)
    (hc : c.toUInt8 ≠ 'P'.toUInt8) : raw ≠ Text.toBytes "Parameter" := by
  rintro rfl
  exact hc (hraw 'P'.toUInt8 (by decide)).symm

/-- Of the values, only the string has the plain text of a parameter's tag. -/
theorem plainText_eq_parameter_iff {t : Term} (ht : t.Genuine) :
    t.plainText = Text.toBytes "Parameter" ↔ t = .string (Text.toBytes "Parameter") := by
  cases ht with
  | null => exact iff_of_false (toBytes_ne_parameter (by decide)) (by simp)
  | boolean value =>
      refine iff_of_false ?_ (by simp)
      rw [plainText]
      split
      · exact toBytes_ne_parameter (by decide)
      · exact toBytes_ne_parameter (by decide)
  | number text =>
      refine iff_of_false ?_ (by simp)
      rw [plainText]
      split
      next hinteger => exact toBytes_ne_parameter (head?_of_isIntegerText hinteger)
      next => exact toBytes_ne_parameter (head?_positional _)
  | string value => simp [plainText]
  | array hraw => exact iff_of_false (ne_parameter_of_opens hraw (by decide)) (by simp)
  | object hraw => exact iff_of_false (ne_parameter_of_opens hraw (by decide)) (by simp)

end Term

/-! What is read is genuine. -/

namespace Reader

theorem opens_ofPieces {c : Char} (hc : String.utf8EncodeChar c = [c.toUInt8])
    (ps : List Piece) : Opens c (Text.ofPieces (.char c :: ps)) := by
  intro b hb
  simpa [Text.ofPieces, Piece.bytes, hc] using hb.symm

theorem opens_slice {c : Char} (hc : String.utf8EncodeChar c = [c.toUInt8])
    (ps rest : List Piece) : Opens c (slice (.char c :: ps) rest) := by
  unfold slice
  cases (Piece.char c :: ps).length - rest.length with
  | zero => exact nofun
  | succ k => exact opens_ofPieces hc (ps.take k)

/-- All that is read with the fuel is genuine. -/
structure Faithful (fuel : Nat) : Prop where
  value {ps rest : List Piece} {t : Term} (ht : value? fuel ps = some (t, rest)) : t.Genuine
  items {start : Bool} {ps rest : List Piece} {items : List Term}
    (hitems : items? fuel start ps = some (items, rest)) : ∀ t ∈ items, t.Genuine
  members {start : Bool} {ps rest : List Piece} {members : List (ByteString × Term)}
    (hmembers : members? fuel start ps = some (members, rest)) : ∀ m ∈ members, m.2.Genuine

section Step

variable {fuel : Nat} {start : Bool} {ps rest : List Piece}

theorem Faithful.value_succ (hfuel : Faithful fuel) {t : Term}
    (ht : value? (fuel + 1) ps = some (t, rest)) : t.Genuine ∧ (extend ps t).Genuine := by
  unfold value? at ht
  split at ht
  case h_1 =>
    obtain ⟨⟨s, tail⟩, -, ht⟩ := Option.bind_eq_some_iff.mp ht
    cases ht
    exact ⟨.string _, .string _⟩
  case h_2 tail =>
    obtain ⟨⟨items, tail⟩, hitems, ht⟩ := Option.bind_eq_some_iff.mp ht
    cases ht
    have hparts := hfuel.items hitems
    exact ⟨.array (opens_slice rfl _ _) hparts, .array (opens_ofPieces rfl _) hparts⟩
  case h_3 =>
    obtain ⟨⟨members, tail⟩, hmembers, ht⟩ := Option.bind_eq_some_iff.mp ht
    cases ht
    have hparts := hfuel.members hmembers
    exact ⟨.object (opens_slice rfl _ _) hparts, .object (opens_ofPieces rfl _) hparts⟩
  case h_4 =>
    obtain ⟨tail, -, ht⟩ := Option.map_eq_some_iff.mp ht
    cases ht
    exact ⟨.boolean _, .boolean _⟩
  case h_5 =>
    obtain ⟨tail, -, ht⟩ := Option.map_eq_some_iff.mp ht
    cases ht
    exact ⟨.boolean _, .boolean _⟩
  case h_6 =>
    obtain ⟨tail, -, ht⟩ := Option.map_eq_some_iff.mp ht
    cases ht
    exact ⟨.null, .null⟩
  case h_7 =>
    obtain ⟨⟨text, tail⟩, -, ht⟩ := Option.map_eq_some_iff.mp ht
    cases ht
    exact ⟨.number _, .number _⟩

theorem Faithful.items_succ (hfuel : Faithful fuel) {items : List Term}
    (hitems : items? (fuel + 1) start ps = some (items, rest)) : ∀ t ∈ items, t.Genuine := by
  unfold items? at hitems
  split at hitems
  · cases hitems
    exact nofun
  · obtain ⟨⟨item, tail⟩, hitem, hitems⟩ := Option.bind_eq_some_iff.mp hitems
    have hfirst := hfuel.value hitem
    dsimp only at hitems
    split at hitems
    · obtain ⟨⟨others, tail⟩, hothers, hitems⟩ := Option.bind_eq_some_iff.mp hitems
      cases hitems
      exact List.forall_mem_cons.mpr ⟨hfirst, hfuel.items hothers⟩
    · cases hitems
      exact List.forall_mem_singleton.mpr hfirst
    · cases hitems

theorem Faithful.members_succ (hfuel : Faithful fuel) {members : List (ByteString × Term)}
    (hmembers : members? (fuel + 1) start ps = some (members, rest)) :
    ∀ m ∈ members, m.2.Genuine := by
  unfold members? at hmembers
  split at hmembers
  · cases hmembers
    exact nofun
  · obtain ⟨⟨key, tail⟩, -, hmembers⟩ := Option.bind_eq_some_iff.mp hmembers
    dsimp only at hmembers
    split at hmembers
    · obtain ⟨⟨item, tail⟩, hitem, hmembers⟩ := Option.bind_eq_some_iff.mp hmembers
      have hfirst := hfuel.value hitem
      dsimp only at hmembers
      split at hmembers
      · obtain ⟨⟨others, tail⟩, hothers, hmembers⟩ := Option.bind_eq_some_iff.mp hmembers
        cases hmembers
        exact List.forall_mem_cons.mpr ⟨hfirst, hfuel.members hothers⟩
      · cases hmembers
        exact List.forall_mem_singleton.mpr hfirst
      · cases hmembers
    · cases hmembers
  · cases hmembers

end Step

theorem faithful (fuel : Nat) : Faithful fuel := by
  induction fuel with
  | zero => exact ⟨by simp [value?], by simp [items?], by simp [members?]⟩
  | succ fuel ih => exact ⟨fun ht => (ih.value_succ ht).1, ih.items_succ, ih.members_succ⟩

end Reader

theorem Term.genuine_of_ofBytes? {bytes : ByteString} {t : Term}
    (ht : ofBytes? bytes = some t) : t.Genuine := by
  obtain ⟨⟨inner, rest⟩, hinner, ht⟩ := Option.bind_eq_some_iff.mp ht
  dsimp only at ht
  split at ht
  · cases ht
    exact ((Reader.faithful _).value_succ hinner).2
  · cases ht

end ScriptTree.Json
