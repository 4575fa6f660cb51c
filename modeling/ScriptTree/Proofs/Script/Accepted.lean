import ScriptTree.Proofs.Compile.Failure
import ScriptTree.Proofs.Script.Decode

/-!
Scripts that were read. No place of them is empty, and a tag that is kept as it is
belongs to no kind and is not empty. So a script that was read and does not compile fails
with the tag of a node that stands in it.
-/

namespace ScriptTree

open Json (Term)
open Identifier (Options)

namespace Node

/-- A script without empty places, in which every tag that names no kind is a tag. -/
inductive Whole : Node → Prop
  | boolean (value : Bool) : Whole (boolean value)
  | number (value : Number) : Whole (number value)
  | reference (name : ByteString) : Whole (reference name)
  | operation {op : Operation} {operands : List Node} (hoperands : ∀ n ∈ operands, Whole n) :
      Whole (operation op operands)
  | function (name : ByteString) (parameters : List Parameter) {body : Node}
      (hbody : Whole body) : Whole (function name parameters body)
  | unrecognized {tag : ByteString} (raw : ByteString) (hne : tag ≠ [])
      (hkind : ∀ kind : Kind, tag ≠ Text.toBytes kind.tag) : Whole (unrecognized tag raw)

theorem Whole.child? {n m : Node} {s : Segment} (hn : n.Whole) (hm : n.child? s = some m) :
    m.Whole := by
  cases hn with
  | boolean value => cases hm
  | number value => cases hm
  | reference name => cases hm
  | operation hoperands =>
      cases s with
      | child i => exact hoperands m (List.mem_of_getElem? hm)
      | field name => cases hm
      | parameter i => cases hm
  | function name parameters hbody =>
      cases s with
      | field step =>
          simp only [Node.child?, Option.ite_none_right_eq_some, Option.some.injEq] at hm
          exact hm.2 ▸ hbody
      | child i => cases hm
      | parameter i => cases hm
  | unrecognized raw hne hkind => cases hm

theorem Whole.at? {n m : Node} {p : Path} (hn : n.Whole) (hm : n.at? p = some m) :
    m.Whole := by
  induction p generalizing n with
  | nil => exact Option.some.inj hm ▸ hn
  | cons s p ih =>
      obtain ⟨c, hchild, hm⟩ := Option.bind_eq_some_iff.mp hm
      exact ih (hn.child? hchild) hm

theorem Whole.at?_ne_missing {n : Node} (hn : n.Whole) (p : Path) (expected : Option Kind) :
    n.at? p ≠ some (missing expected) := by
  intro hm
  cases hn.at? hm

/-- A node without a compiled form is one whose tag was kept. -/
theorem Whole.unknownAt_iff {n : Node} {p : Path} {tag : ByteString} (hn : n.Whole) :
    n.UnknownAt p tag ↔ ∃ raw, n.at? p = some (.unrecognized tag raw) := by
  constructor
  · rintro ⟨m, hm, htag⟩
    cases m with
    | missing expected => exact absurd hm (hn.at?_ne_missing p expected)
    | unrecognized other raw =>
        cases Option.some.inj htag
        exact ⟨raw, hm⟩
    | boolean value => cases htag
    | number value => cases htag
    | reference name => cases htag
    | operation op operands => cases htag
    | function name parameters body => cases htag
  · rintro ⟨raw, hm⟩
    exact ⟨_, hm, rfl⟩

theorem Whole.exists_compile_eq_ok_iff {n : Node} (hn : n.Whole) (ids : Options) :
    (∃ e, n.compile ids = .ok e) ↔
      ∀ p tag raw, n.at? p = some (.unrecognized tag raw) → n.BelowLoneEquality p := by
  rw [Node.exists_compile_eq_ok_iff]
  refine forall₂_congr fun p tag => ?_
  simp [ExposedAt, hn.unknownAt_iff]

theorem Whole.compile_eq_error {n : Node} {ids : Options} {cause : CompileError}
    (hn : n.Whole) (hcause : n.compile ids = .error cause) :
    ∃ p tag raw, cause = .unknownNode tag ∧ n.at? p = some (.unrecognized tag raw) := by
  obtain ⟨p, tag, hleftmost, rfl⟩ := compile_eq_error_iff.mp hcause
  obtain ⟨raw, hm⟩ := hn.unknownAt_iff.mp hleftmost.exposed.1
  exact ⟨p, tag, raw, rfl, hm⟩

end Node

namespace Decode

theorem Represents.whole {t : Term} {n : Node} (hrepresents : Represents t n) : n.Whole := by
  induction hrepresents with
  | boolean _ _ => exact .boolean _
  | number _ _ => exact .number _
  | reference _ _ => exact .reference _
  | operation _ _ _ ih =>
      refine .operation fun n hn => ?_
      obtain ⟨item, hitem, rfl⟩ := List.mem_map.mp hn
      exact ih item hitem
  | function _ _ _ _ _ _ ih => exact .function _ _ ih
  | unrecognized _ hne hkind => exact .unrecognized _ hne hkind

end Decode

namespace Node

theorem whole_of_ofJsonText {bytes : ByteString} {n : Node} (hn : ofJsonText bytes = .ok n) :
    n.Whole := by
  unfold ofJsonText at hn
  split at hn
  · cases hn
  next t ht =>
    have hreads := Decode.reads (Term.genuine_of_ofBytes? ht) []
    rw [hn] at hreads
    cases hreads with
    | ok hrepresents => exact hrepresents.whole

/-- A script that was read has no empty place. It compiles if each node whose tag was kept
stands below an equality with one operand; else it fails with the tag of such a node, which
is the tag of no kind and not empty. Any builder is stopped by the same node. -/
theorem compile_of_ofJsonText {bytes : ByteString} {n : Node}
    (hn : ofJsonText bytes = .ok n) :
    (∀ p expected, n.at? p ≠ some (missing expected)) ∧
      ∀ ids : Options,
        ((∃ e, n.compile ids = .ok e) ∨
          ∃ p tag raw, n.compile ids = .error (.unknownNode tag) ∧
            n.at? p = some (.unrecognized tag raw) ∧ tag ≠ [] ∧
            ∀ kind : Kind, tag ≠ Text.toBytes kind.tag) ∧
        ((∃ e, n.compile ids = .ok e) ↔
          ∀ p tag raw, n.at? p = some (.unrecognized tag raw) → n.BelowLoneEquality p) ∧
        ∀ (σ : Type) (b : Js.Builder σ) (s : σ) (cause : CompileError),
          ((n.compileWith b ids).runFrom s).1 = .error cause ↔ n.compile ids = .error cause := by
  have hwhole := whole_of_ofJsonText hn
  refine ⟨hwhole.at?_ne_missing, fun ids => ⟨?_, hwhole.exists_compile_eq_ok_iff ids,
    fun σ b s cause => compileWith_eq_error_iff b ids n s cause⟩⟩
  cases hcompile : n.compile ids with
  | ok e => exact .inl ⟨e, rfl⟩
  | error cause =>
      obtain ⟨p, tag, raw, rfl, hm⟩ := hwhole.compile_eq_error hcompile
      cases hwhole.at? hm with
      | unrecognized _ hne hkind => exact .inr ⟨p, tag, raw, rfl, hm, hne, hkind⟩

/-! A text with two tags of no kind, of which the first is not looked at. -/

def foreignText : String :=
  "\x7b\"_type\":\"Or\",\"children\":[" ++
    "\x7b\"_type\":\"Equal\",\"children\":[\x7b\"_type\":\"a\"\x7d]\x7d,\x7b\"_type\":\"Xor\"\x7d]\x7d"

def foreignTerm (tag : String) : Term :=
  .object ("\x7b\"_type\":\"" ++ tag ++ "\"\x7d") [(Text.toBytes "_type", .string tag)]

def foreignNode (tag : String) : Node :=
  unrecognized tag ("\x7b\"_type\":\"" ++ tag ++ "\"\x7d")

def foreignEquality : Term :=
  .object "\x7b\"_type\":\"Equal\",\"children\":[\x7b\"_type\":\"a\"\x7d]\x7d" [
    (Text.toBytes "_type", .string "Equal"),
    (Text.toBytes "children", .array "[\x7b\"_type\":\"a\"\x7d]" [foreignTerm "a"])]

def foreignDisjunction : Term :=
  .object foreignText [
    (Text.toBytes "_type", .string "Or"),
    (Text.toBytes "children", .array
      "[\x7b\"_type\":\"Equal\",\"children\":[\x7b\"_type\":\"a\"\x7d]\x7d,\x7b\"_type\":\"Xor\"\x7d]"
      [foreignEquality, foreignTerm "Xor"])]

def foreignScript : Node := operation .or [operation .equal [foreignNode "a"], foreignNode "Xor"]

theorem ofBytes?_foreignText : Term.ofBytes? foreignText = some foreignDisjunction := by
  have hpieces : Text.pieces foreignText = foreignText.toList.map .char := by decide +kernel
  rw [Term.ofBytes?, hpieces]
  cbv

theorem represents_foreign {tag : String} (hne : Text.toBytes tag ≠ [])
    (hkind : Kind.ofTag? (Text.toBytes tag) = none) :
    Decode.Represents (foreignTerm tag) (foreignNode tag) :=
  .unrecognized (Decode.field?_eq_some_iff.mp rfl) hne (Decode.ofTag?_eq_none_iff.mp hkind)

theorem represents_foreignScript : Decode.Represents foreignDisjunction foreignScript := by
  have hlone : ∀ item ∈ [(foreignTerm "a", foreignNode "a")], Decode.Represents item.1 item.2 :=
    List.forall_mem_singleton.mpr (represents_foreign (by decide) (by decide))
  have hequal : Decode.Represents foreignEquality (operation .equal [foreignNode "a"]) :=
    .operation (Decode.field?_eq_some_iff.mp rfl) (.array (Decode.field?_eq_some_iff.mp rfl)) hlone
  have hoperands : ∀ item ∈ [(foreignEquality, operation .equal [foreignNode "a"]),
      (foreignTerm "Xor", foreignNode "Xor")], Decode.Represents item.1 item.2 := by
    simp only [List.forall_mem_cons]
    exact ⟨hequal, represents_foreign (by decide) (by decide), nofun⟩
  exact .operation (Decode.field?_eq_some_iff.mp rfl) (.array (Decode.field?_eq_some_iff.mp rfl))
    hoperands

theorem compile_of_ofJsonText_foreignText :
    ofJsonText foreignText = .ok foreignScript ∧
      foreignScript.compile .standard = .error (.unknownNode "Xor") ∧
      ∃ p raw, foreignScript.at? p = some (.unrecognized "Xor" raw) := by
  have hread : ofJsonText foreignText = .ok foreignScript := by
    rw [ofJsonText, ofBytes?_foreignText]
    exact Decode.node_of_represents represents_foreignScript
  have hfails : foreignScript.compile .standard = .error (.unknownNode "Xor") := rfl
  rcases ((compile_of_ofJsonText hread).2 .standard).1 with ⟨e, he⟩ | ⟨p, tag, raw, herror, hm, -⟩
  · rw [hfails] at he
    cases he
  · rw [hfails] at herror
    cases herror
    exact ⟨hread, hfails, p, raw, hm⟩

end Node

end ScriptTree
