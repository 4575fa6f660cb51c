import ScriptTree.Identifier
import ScriptTree.Proofs.Text.Bytes

/-!
Emitted names. No edition reserves a name that is no text. Under the standard options a
reserved word gets an underscore in front, and no reserved word starts with one; so two
names are emitted as one only if one of them is a reserved word and the other one is
that word behind an underscore.
-/

namespace ScriptTree.Identifier

open Reserved (Catalogue editionES6)
open Reconciler (underscoreMark)

theorem get?_builtin_latest : Catalogue.builtin.get? .latest = some editionES6 := by
  decide +kernel

theorem head?_ne_underscore_of_reserves {word : String}
    (hword : editionES6.reserves word true = true) : word.toList.head? ≠ some '_' := by
  have hall : ∀ w ∈ editionES6.words ++ editionES6.strictWords,
      w.toList.head? ≠ some '_' := by
    decide +kernel
  apply hall
  simpa [Reserved.Edition.reserves] using hword

theorem head?_of_text?_underscore {name : ByteString} {text : String}
    (htext : ByteString.text? (underscoreMark ++ name) = some text) :
    text.toList.head? = some '_' := by
  have hmark : underscoreMark ++ name = UInt8.ofNat 95 :: name := rfl
  rw [hmark, ByteString.text?, Text.ofBytes?] at htext
  split at htext
  case isFalse => cases htext
  case isTrue =>
    rw [← Option.some.inj htext, Text.ofBytes, String.toList_ofList,
      Text.chars_cons_of_ascii (by decide)]
    rfl

theorem Table.reserves_standard (name : ByteString) (d : Dialect) (strict : Bool) :
    standard.reserves name d strict =
      name.text?.any (Catalogue.builtin.reserves · d strict) := rfl

namespace Options

theorem sanitize_of_text?_eq_none {ids : Options} (htable : ids.table.getD .standard = .standard)
    {name : ByteString} (htext : name.text? = none) : ids.sanitize name = name := by
  have hreserves : ids.reserves name = false := by
    rw [reserves, htable, Table.reserves_standard, htext, Option.any_none]
  simp [sanitize, hreserves]

theorem reserves_standard_of_text? {name : ByteString} {text : String}
    (htext : name.text? = some text) :
    standard.reserves name = editionES6.reserves text true := by
  have htable : standard.table.getD .standard = .standard := rfl
  have hresolve : standard.dialect.resolve.resolve = .latest := by decide
  rw [reserves, htable, Table.reserves_standard, htext, Option.any_some, Catalogue.reserves,
    hresolve, get?_builtin_latest]
  rfl

theorem reserves_standard_underscore (name : ByteString) :
    standard.reserves (underscoreMark ++ name) = false := by
  cases htext : ByteString.text? (underscoreMark ++ name) with
  | none =>
      have htable : standard.table.getD .standard = .standard := rfl
      rw [reserves, htable, Table.reserves_standard, htext, Option.any_none]
  | some text =>
      rw [reserves_standard_of_text? htext]
      cases hreserved : editionES6.reserves text true with
      | false => rfl
      | true =>
          exact absurd (head?_of_text?_underscore htext)
            (head?_ne_underscore_of_reserves hreserved)

theorem sanitize_standard (name : ByteString) :
    standard.sanitize name =
      if standard.reserves name then underscoreMark ++ name else name := rfl

/-- Two names become one only where an underscore makes them differ. -/
theorem sanitize_standard_eq_iff {x y : ByteString} (hne : x ≠ y) :
    standard.sanitize x = standard.sanitize y ↔
      (standard.reserves x = true ∧ y = underscoreMark ++ x) ∨
        (standard.reserves y = true ∧ x = underscoreMark ++ y) := by
  rw [sanitize_standard, sanitize_standard]
  constructor
  · intro heq
    cases hx : standard.reserves x with
    | false =>
        cases hy : standard.reserves y with
        | false => simp [hx, hy, hne] at heq
        | true => exact .inr ⟨rfl, by simpa [hx, hy] using heq⟩
    | true =>
        cases hy : standard.reserves y with
        | false => exact .inl ⟨rfl, by simpa [hx, hy] using heq.symm⟩
        | true => simp [hx, hy, hne] at heq
  · rintro (⟨hx, rfl⟩ | ⟨hy, rfl⟩)
    · simp [hx, reserves_standard_underscore]
    · simp [hy, reserves_standard_underscore]

end Options

end ScriptTree.Identifier
