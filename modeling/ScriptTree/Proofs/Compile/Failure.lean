import ScriptTree.Compile.Trace
import ScriptTree.Proofs.Compile.Builder
import ScriptTree.Proofs.Compile.Pairs
import ScriptTree.Proofs.Script.Position

/-!
Failures of compilation. A script fails exactly if a node without a compiled form is
exposed, and the error names the leftmost of them, however often an operand is visited.
Below an equality with one operand such a node does no harm.
-/

namespace ScriptTree

open Identifier (Options)
open Js (Expr)

namespace Node

/-! The error names the leftmost exposed node. -/

/-- A script that compiles exposes nothing, and the error of one that does not names
the leftmost exposed node. -/
structure Located (ids : Options) (n : Node) : Prop where
  compiles : n.failure? ids = none → ∀ p tag, ¬ n.ExposedAt p tag
  fails : ∀ cause, n.failure? ids = some cause →
    ∃ p tag, n.Leftmost p tag ∧ cause = .unknownNode tag

theorem located_of_unknownTag? {ids : Options} {n : Node} {tag : ByteString}
    (htag : n.unknownTag? = some tag)
    (hfailure : n.failure? ids = some (.unknownNode tag)) : n.Located ids := by
  constructor
  · intro hnone
    rw [hfailure] at hnone
    cases hnone
  · intro cause hcause
    rw [hfailure] at hcause
    exact ⟨[], tag, leftmost_of_unknownTag? htag, (Option.some.inj hcause).symm⟩

theorem located_of_leaf {ids : Options} {n : Node} (hfailure : n.failure? ids = none)
    (htag : n.unknownTag? = none) (hchild : ∀ s, n.child? s = none) :
    n.Located ids := by
  constructor
  · intro _
    exact not_exposedAt_of_leaf htag hchild
  · intro cause hcause
    rw [hfailure] at hcause
    cases hcause

theorem Located.function {ids : Options} {name : ByteString}
    {parameters : List Parameter} {body : Node} (hbody : body.Located ids) :
    (function name parameters body).Located ids := by
  constructor
  · intro hnone p tag hp
    rw [failure?_function] at hnone
    obtain ⟨q, -, hq⟩ := exposedAt_function.mp hp
    exact hbody.compiles hnone q tag hq
  · intro cause hcause
    rw [failure?_function] at hcause
    obtain ⟨p, tag, hleftmost, rfl⟩ := hbody.fails cause hcause
    exact ⟨_, tag, hleftmost.function, rfl⟩

theorem located_operation {ids : Options} {op : Operation} {operands : List Node}
    (hoperands : ∀ n ∈ operands, n.Located ids) :
    (operation op operands).Located ids := by
  constructor
  · intro hnone p tag hp
    obtain ⟨hlone, i, m, q, -, hm, hq⟩ := exposedAt_operation.mp hp
    rw [failure?_operation, if_neg hlone, List.findSome?_eq_none_iff] at hnone
    have hmem := List.mem_of_getElem? hm
    exact (hoperands m hmem).compiles (hnone m hmem) q tag hq
  · intro cause hcause
    rw [failure?_operation] at hcause
    by_cases hlone : op = .equal ∧ operands.length = 1
    · rw [if_pos hlone] at hcause
      cases hcause
    · -- the operands before the one that fails compile, so they expose nothing
      rw [if_neg hlone, List.findSome?_eq_some_iff] at hcause
      obtain ⟨before, m, after, rfl, hm, hbefore⟩ := hcause
      obtain ⟨p, tag, hleftmost, rfl⟩ := (hoperands m (by simp)).fails cause hm
      refine ⟨_, tag, hleftmost.operation hlone ?_, rfl⟩
      intro n hn
      exact (hoperands n (by simp [hn])).compiles (hbefore n hn)

theorem located (ids : Options) (n : Node) : n.Located ids := by
  induction n with
  | missing expected => exact located_of_unknownTag? rfl rfl
  | unrecognized tag raw => exact located_of_unknownTag? rfl rfl
  | boolean value => exact located_of_leaf rfl rfl fun _ => rfl
  | number value => exact located_of_leaf rfl rfl fun _ => rfl
  | reference name => exact located_of_leaf rfl rfl fun _ => rfl
  | function name parameters body ih => exact ih.function
  | operation op operands ih => exact located_operation ih

theorem exists_compile_eq_ok_iff {ids : Options} {n : Node} :
    (∃ e, n.compile ids = .ok e) ↔ ∀ p tag, ¬ n.ExposedAt p tag := by
  rw [← failure?_eq_none_iff]
  refine ⟨(located ids n).compiles, fun hexposed => ?_⟩
  cases hfailure : n.failure? ids with
  | none => rfl
  | some cause =>
      obtain ⟨p, tag, hleftmost, -⟩ := (located ids n).fails cause hfailure
      exact absurd hleftmost.exposed (hexposed p tag)

theorem exists_compile_eq_error_of_exposedAt (ids : Options) {n : Node} {p : Path}
    {tag : ByteString} (hexposed : n.ExposedAt p tag) :
    ∃ cause, n.compile ids = .error cause := by
  cases hcompile : n.compile ids with
  | error cause => exact ⟨cause, rfl⟩
  | ok e => exact absurd hexposed (exists_compile_eq_ok_iff.mp ⟨e, hcompile⟩ p tag)

theorem compile_eq_error_iff {ids : Options} {n : Node} {cause : CompileError} :
    n.compile ids = .error cause ↔
      ∃ p tag, n.Leftmost p tag ∧ cause = .unknownNode tag := by
  constructor
  · intro hcause
    exact (located ids n).fails cause (failure?_eq_some_iff.mpr hcause)
  · rintro ⟨p, tag, hleftmost, rfl⟩
    obtain ⟨cause, hcause⟩ :=
      exists_compile_eq_error_of_exposedAt ids hleftmost.exposed
    obtain ⟨q, other, hother, rfl⟩ :=
      (located ids n).fails cause (failure?_eq_some_iff.mpr hcause)
    rw [hcause, (hleftmost.unique hother).2]

end Node

/-! The recorded steps stop with the same error. The first operand of an equality is
visited again for each comparison, and fails the first one if it fails at all. -/

namespace Compile.Trace

theorem error_andThen (t u : Trace) : (t.andThen u).error = t.error.or u.error := by
  unfold andThen
  cases herror : t.error with
  | none => rfl
  | some cause => simp [herror]

theorem error_foldl_andThen (t : Trace) (operands : List Trace) :
    (operands.foldl andThen t).error = t.error.or (operands.findSome? error) := by
  induction operands generalizing t with
  | nil => simp
  | cons first rest ih =>
      rw [List.foldl_cons, ih, error_andThen, List.findSome?_cons]
      cases t.error <;> cases first.error <;> rfl

theorem error_join (identity : Step) (op : Js.Operator) (operands : List Trace) :
    (join identity op operands).error = operands.findSome? error := by
  cases operands with
  | nil => rfl
  | cons first rest =>
      rw [join, error_andThen, error_foldl_andThen]
      · simp [empty, of]
      · simp

theorem error_compare (operands : List Trace) :
    (compare operands).error =
      if operands.length = 1 then none else operands.findSome? error := by
  cases operands with
  | nil => rfl
  | cons first others =>
      cases others with
      | nil => rfl
      | cons second rest =>
          have hpair : (error ∘ fun other =>
              (first.andThen other).andThen (of [.binary .equal])) =
              fun other => first.error.or other.error := by
            funext other
            simp [error_andThen, of]
          rw [compare, error_join, List.findSome?_map, hpair,
            findSome?_or _ _ (List.cons_ne_nil _ _), if_neg (by simp),
            List.findSome?_cons (a := first)]
          cases first.error <;> rfl

end Compile.Trace

namespace Node

theorem length_traceAll (operands : List Node) :
    (traceAll operands).length = operands.length := by
  induction operands with
  | nil => rfl
  | cons n rest ih => rw [traceAll, List.length_cons, ih, List.length_cons]

theorem findSome?_traceAll {ids : Options} {operands : List Node}
    (hoperands : ∀ n ∈ operands, n.trace.error = n.failure? ids) :
    (traceAll operands).findSome? Compile.Trace.error =
      operands.findSome? (failure? ids) := by
  induction operands with
  | nil => rfl
  | cons n rest ih =>
      rw [traceAll, List.findSome?_cons, List.findSome?_cons, hoperands n (by simp),
        ih fun m hm => hoperands m (List.mem_cons_of_mem _ hm)]

theorem trace_error (ids : Options) (n : Node) : n.trace.error = n.failure? ids := by
  induction n with
  | missing expected => rfl
  | boolean value => rfl
  | number value => rfl
  | reference name => rfl
  | unrecognized tag raw => rfl
  | function name parameters body ih =>
      rw [trace, failure?_function, ← ih]
      simp [Compile.Trace.error_andThen, Compile.Trace.of]
  | operation op operands ih =>
      have hoperands := findSome?_traceAll ih
      rw [failure?_operation]
      cases op with
      | and => simpa [trace, Compile.Trace.error_join] using hoperands
      | or => simpa [trace, Compile.Trace.error_join] using hoperands
      | sum => simpa [trace, Compile.Trace.error_join] using hoperands
      | equal => simp [trace, Compile.Trace.error_compare, hoperands, length_traceAll]

/-- Compilation fails exactly if a node without a compiled form is exposed, and then
with the tag of the leftmost such node. Compiling step by step, recording the steps and
calling any builder end with the same error, and no operator is ever missing. -/
theorem compile_fails_at_leftmost_exposed (ids : Options) (n : Node) :
    ((∃ cause, n.compile ids = .error cause) ↔ ∃ p tag, n.ExposedAt p tag) ∧
      (∀ cause, n.compile ids = .error cause ↔
        ∃ p tag, n.Leftmost p tag ∧ cause = .unknownNode tag) ∧
      (∀ tag, n.compile ids ≠ .error (.unknownOperator tag)) ∧
      n.compileByPairs ids = n.compile ids ∧
      (∀ cause, n.trace.error = some cause ↔ n.compile ids = .error cause) ∧
      ∀ (σ : Type) (b : Js.Builder σ) (s : σ) (cause : CompileError),
        ((n.compileWith b ids).runFrom s).1 = .error cause ↔ n.compile ids = .error cause := by
  refine ⟨?_, fun cause => compile_eq_error_iff, ?_, compileByPairs_eq_compile ids n, ?_,
    fun σ b s cause => compileWith_eq_error_iff b ids n s cause⟩
  · constructor
    · rintro ⟨cause, hcause⟩
      obtain ⟨p, tag, hleftmost, -⟩ := compile_eq_error_iff.mp hcause
      exact ⟨p, tag, hleftmost.exposed⟩
    · rintro ⟨p, tag, hexposed⟩
      exact exists_compile_eq_error_of_exposedAt ids hexposed
  · intro tag hcause
    obtain ⟨p, other, -, hother⟩ := compile_eq_error_iff.mp hcause
    cases hother
  · intro cause
    rw [trace_error ids, failure?_eq_some_iff]

-- the first operand comes before the third, although it is compiled again with it
example :
    (operation .equal [operation .or [reference "x", unrecognized "first" ""],
      number .zero, unrecognized "third" ""]).compile .standard =
      .error (.unknownNode "first") := by
  rfl

/-- A node without a compiled form fails the compilation wherever it is exposed; a
script that has such nodes compiles only if each of them stands below an equality with
one operand. No builder changes that. -/
theorem compile_of_unknownAt (ids : Options) (n : Node) (p : Path) (tag : ByteString)
    (hunknown : n.UnknownAt p tag) :
    (¬ n.BelowLoneEquality p →
        ∃ first, n.compile ids = .error (.unknownNode first)) ∧
      ((∃ e, n.compile ids = .ok e) ↔
        ∀ q other, n.UnknownAt q other → n.BelowLoneEquality q) ∧
      ∀ (σ : Type) (b : Js.Builder σ) (s : σ) (cause : CompileError),
        ((n.compileWith b ids).runFrom s).1 = .error cause ↔ n.compile ids = .error cause := by
  refine ⟨?_, ?_, fun σ b s cause => compileWith_eq_error_iff b ids n s cause⟩
  · intro hbelow
    obtain ⟨cause, hcause⟩ :=
      exists_compile_eq_error_of_exposedAt ids ⟨hunknown, hbelow⟩
    obtain ⟨q, first, -, rfl⟩ := compile_eq_error_iff.mp hcause
    exact ⟨first, hcause⟩
  · rw [exists_compile_eq_ok_iff]
    exact forall₂_congr fun q other => by simp [ExposedAt]

/-- The operand of this equality is never looked at. -/
def loneUnrecognized : Node := operation .equal [unrecognized "foobar" ""]

theorem compile_of_unknownAt_loneUnrecognized :
    loneUnrecognized.UnknownAt [.child 0] "foobar" ∧
      loneUnrecognized.compile .standard = .ok (.boolean true) ∧
      ∀ q other, loneUnrecognized.UnknownAt q other →
        loneUnrecognized.BelowLoneEquality q := by
  have hunknown : loneUnrecognized.UnknownAt [.child 0] "foobar" := ⟨_, rfl, rfl⟩
  exact ⟨hunknown, rfl, (compile_of_unknownAt .standard _ _ _ hunknown).2.1.mp ⟨_, rfl⟩⟩

end Node

end ScriptTree
