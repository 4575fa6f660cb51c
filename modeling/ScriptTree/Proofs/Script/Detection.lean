import ScriptTree.Proofs.Script.Formats

/-!
The format that a text without a telling file name is read in. Every JSON script begins with a
brace and is found by it, so reading by content is reading as JSON, or as YAML where no brace
comes first. A YAML script that begins with a brace is missed.
-/

namespace ScriptTree

open Json (Term)
open Text (Piece)
open Decode (Represents)

/-! The first character of a JSON script. -/

namespace Json.Reader

theorem exists_brace_of_value? {fuel : Nat} {ps rest : List Piece} {raw : ByteString}
    {members : List (ByteString × Term)}
    (hvalue : value? fuel ps = some (.object raw members, rest)) :
    ∃ tail, ps = .char '\x7b' :: tail := by
  cases fuel with
  | zero => simp [value?] at hvalue
  | succ fuel =>
      unfold value? at hvalue
      split at hvalue
      case h_1 => simp [Option.bind_eq_some_iff] at hvalue
      case h_2 => simp [Option.bind_eq_some_iff] at hvalue
      case h_3 tail => exact ⟨tail, rfl⟩
      all_goals simp at hvalue

theorem eq_object_of_extend {ps : List Piece} {t : Term} {raw : ByteString}
    {members : List (ByteString × Term)} (hextend : extend ps t = .object raw members) :
    ∃ inner, t = .object inner members := by
  cases t with
  | object inner others =>
      cases hextend
      exact ⟨inner, rfl⟩
  | _ => cases hextend

end Json.Reader

open Json.Reader (skipSpace isSpace)

theorem Json.Term.exists_brace_of_ofBytes? {bytes raw : ByteString}
    {members : List (ByteString × Term)}
    (hread : Term.ofBytes? bytes = some (.object raw members)) :
    ∃ tail, skipSpace (Text.pieces bytes) = .char '\x7b' :: tail := by
  obtain ⟨⟨t, rest⟩, hvalue, hread⟩ := Option.bind_eq_some_iff.mp hread
  dsimp only at hread
  split at hread
  · obtain ⟨inner, rfl⟩ := Json.Reader.eq_object_of_extend (Option.some.inj hread)
    exact Json.Reader.exists_brace_of_value? hvalue
  · cases hread

namespace Format

theorem isBlank_of_isSpace {c : Char} (hc : isSpace c = true) : Text.isBlank c = true := by
  simp only [isSpace, Bool.or_eq_true, decide_eq_true_eq] at hc
  rcases hc with ((rfl | rfl) | rfl) | rfl <;> decide

theorem dropWhile_chars_of_brace {ps tail : List Piece}
    (hbrace : skipSpace ps = .char '\x7b' :: tail) :
    (ps.map Piece.toChar).dropWhile Text.isBlank = '\x7b' :: tail.map Piece.toChar := by
  induction ps with
  | nil => cases hbrace
  | cons p rest ih =>
      rw [skipSpace, List.dropWhile_cons] at hbrace
      split at hbrace
      next hspace =>
        cases p with
        | broken byte => cases hspace
        | char c =>
            rw [List.map_cons, Piece.toChar, List.dropWhile_cons,
              if_pos (isBlank_of_isSpace hspace)]
            exact ih hbrace
      next =>
        cases hbrace
        rfl

theorem opensObject_of_brace {bytes : List UInt8} {tail : List Piece}
    (hbrace : skipSpace (Text.pieces bytes) = .char '\x7b' :: tail) :
    opensObject bytes = true := by
  rw [opensObject, Text.ofBytes, String.toList_ofList, Text.chars, dropWhile_chars_of_brace hbrace]
  rfl

theorem detect_of_untold {name : String}
    (hname : Text.lower (FileName.extension name) ∉ [".json", ".yaml", ".yml"])
    (bytes : List UInt8) : detect name bytes = if opensObject bytes then .json else .yaml := by
  simp only [List.mem_cons, List.not_mem_nil, or_false, not_or] at hname
  obtain ⟨hjson, hyaml, hyml⟩ := hname
  simp [detect, hjson, hyaml, hyml]

end Format

namespace Node

theorem opensObject_of_ofJson {bytes : List UInt8} {n : Node} (hread : ofJson bytes = .ok n) :
    Format.opensObject bytes = true := by
  rw [ofJson_eq_ok_iff, ofJsonText_eq_ok_iff] at hread
  obtain ⟨t, ht, hn⟩ := hread
  obtain ⟨raw, members, rfl⟩ : ∃ raw members, t = .object raw members := by
    cases hn <;> exact ⟨_, _, rfl⟩
  obtain ⟨tail, hbrace⟩ := Term.exists_brace_of_ofBytes? ht
  exact Format.opensObject_of_brace hbrace

/-- A file whose name does not tell the format is read as a script exactly if its text is a JSON
script, or a YAML script in which no brace comes first. -/
theorem ofFile_of_untold (name : String)
    (hname : Text.lower (FileName.extension name) ∉ [".json", ".yaml", ".yml"])
    (bytes : List UInt8) (n : Node) :
    ofFile name bytes = .ok n ↔
      ofJson bytes = .ok n ∨ ofYaml bytes = .ok n ∧ Format.opensObject bytes = false := by
  rw [ofFile, Format.detect_of_untold hname]
  cases hopens : Format.opensObject bytes with
  | true => simp [ofSource]
  | false =>
      have hjson : ofJson bytes ≠ .ok n := by
        intro hread
        rw [opensObject_of_ofJson hread] at hopens
        cases hopens
      simp [ofSource, hjson]

end Node

/-! A reference in both styles of YAML. -/

namespace Node

theorem represents_reference (raw : ByteString) (name : String) :
    Represents (.object raw [(Text.toBytes "_type", .string (Text.toBytes "Reference")),
      (Text.toBytes "name", .string (Text.toBytes name))]) (reference (Text.toBytes name)) :=
  .reference (Decode.field?_eq_some_iff.mp rfl) (Decode.field?_eq_some_iff.mp rfl)

theorem sortMembers_reference {α : Type} (tag name : α) :
    Yaml.Value.sortMembers [("_type", tag), ("name", name)] = [("_type", tag), ("name", name)] :=
  List.mergeSort_of_pairwise (by simp)

theorem ofYaml_of_scalars {bytes : List UInt8} {name : String}
    (hscalars : (Yaml.Value.ofBytes bytes).toOption.bind Yaml.Value.scalars? =
      some [("_type", .str "Reference"), ("name", .str name)]) :
    ofYaml bytes = .ok (reference (Text.toBytes name)) := by
  cases hread : Yaml.Value.ofBytes bytes with
  | error e =>
      rw [hread] at hscalars
      cases hscalars
  | ok v =>
      rw [hread] at hscalars
      obtain rfl := Yaml.Value.eq_of_scalars? hscalars
      delta ofYaml
      rw [hread]
      apply ofYamlValue_of_represents
      · rw [Yaml.Value.jsonFailure?_object, List.forall_mem_map, List.forall_mem_cons,
          List.forall_mem_singleton]
        exact ⟨rfl, rfl⟩
      · simp only [List.map_cons, List.map_nil, Yaml.Value.json, Yaml.Value.jsonMembers_eq_map,
          sortMembers_reference, Yaml.Value.scalarJson, Json.Value.term, Json.Value.memberTerms,
          Json.Reader.extend, Text.toBytes, Text.chars_ofChars]
        exact represents_reference _ name

theorem dash_untold : Text.lower (FileName.extension "-") ∉ [".json", ".yaml", ".yml"] := by
  decide +kernel

/-- A reference that begins with its first key. -/
def blockReference : List UInt8 := Text.toBytes "_type: Reference\nname: x\n"

theorem ofFile_of_untold_blockReference :
    Text.lower (FileName.extension "-") ∉ [".json", ".yaml", ".yml"] ∧
      ofFile "-" blockReference = .ok (reference "x") := by
  have hyaml : ofYaml blockReference = .ok (reference "x") := ofYaml_of_scalars (by decide +kernel)
  exact ⟨dash_untold,
    (ofFile_of_untold "-" dash_untold blockReference _).mpr (.inr ⟨hyaml, by decide⟩)⟩

/-- A reference that begins with a brace. -/
def bracedReference : List UInt8 := Text.toBytes "\x7b_type: Reference, name: x\x7d"

theorem ofFile_bracedReference :
    Text.lower (FileName.extension "-") ∉ [".json", ".yaml", ".yml"] ∧
      ofYaml bracedReference = .ok (reference "x") ∧
      ∀ n, ofFile "-" bracedReference ≠ .ok n := by
  have hopens : Format.opensObject bracedReference = true := by decide
  have hnone : (Term.ofBytes? bracedReference).isNone = true := by decide
  refine ⟨dash_untold, ofYaml_of_scalars (by decide +kernel), ?_⟩
  intro n hread
  rw [ofFile, Format.detect_of_untold dash_untold, hopens] at hread
  obtain ⟨t, ht, -⟩ := ofJsonText_eq_ok_iff.mp (ofJson_eq_ok_iff.mp hread)
  rw [ht] at hnone
  cases hnone

end Node

end ScriptTree
