import ScriptTree.Pipeline
import ScriptTree.Proofs.Js.RoundTrip
import ScriptTree.Proofs.Script.Verdict

/-!
Scripts that are evaluated before they are compiled. A script that is no function either becomes the
literal of its verdict, printed as that literal alone, or is rejected with diagnostics. Nothing that
compilation refuses is left for it, so the work never fails.
-/

namespace ScriptTree

namespace Literal

def expr : Literal → Js.Expr
  | boolean value => .boolean value
  | number value => .number value

def text : Literal → String
  | boolean value => if value then "true" else "false"
  | number value => value.literal

theorem compile_toNode (v : Literal) (ids : Identifier.Options) :
    v.toNode.compile ids = .ok v.expr := by
  cases v with
  | boolean value => rfl
  | number value => rfl

theorem source_expr (v : Literal) : v.expr.source = Text.toBytes v.text := by
  cases v with
  | boolean value => cases value <;> decide
  | number value =>
      apply Js.dropFinalBreaks_ofChars
      intro hlast
      exact value.break_not_mem_literal (List.mem_of_getLast? hlast)

end Literal

namespace Node

variable {script : Node}

theorem reduce_of_value {v : Literal} (hroot : script.isFunction = false)
    (hv : script.verdict = .ok v) : script.reduce = .reduced v := by
  have hevaluate := (follows_evaluate script []).eq_done hv
  rw [reduce, if_neg (by simp [hroot]), hevaluate]
  rfl

theorem reduce_of_stop {stop : Stop} (hroot : script.isFunction = false)
    (hstop : script.verdict = .error stop) :
    ∃ more, script.reduce = .rejected (stop.report [] :: more) := by
  obtain ⟨more, hmore⟩ := (follows_evaluate script []).exists_findings hstop
  refine ⟨more, ?_⟩
  rw [reduce, if_neg (by simp [hroot])]
  simp [hmore]

end Node

namespace Pipeline

/-- A pipeline that evaluates scripts and neither checks nor shortens what it prints. -/
def evaluating (ids : Identifier.Options) : Pipeline := make ids (some .evaluator) false false

theorem build_literal (ids : Identifier.Options) (v : Literal) :
    (evaluating ids).build v.toNode = .ok { code := Text.toBytes v.text, tree := some v.expr } := by
  rw [build, Literal.compile_toNode, ← Literal.source_expr]
  rfl

/-- A script that is no function never fails where it is evaluated first. Either it has a value,
and the output is the literal of the value with its text; or its evaluation stops, and the output
is a list of diagnostics that starts with the problem it stops at. -/
theorem run_evaluating (ids : Identifier.Options) (script : Node)
    (hroot : script.isFunction = false) :
    let result := ((evaluating ids).run false script).result
    (∃ v, script.verdict = .ok v ∧
      result = .ok { code := Text.toBytes v.text, tree := some v.expr, diagnostics := [] }) ∨
    (∃ stop more, script.verdict = .error stop ∧
      result = .ok { code := [], tree := none,
                     diagnostics := .ofFinding (stop.report []) :: more }) := by
  intro result
  cases hverdict : script.verdict with
  | ok v =>
      refine .inl ⟨v, rfl, ?_⟩
      have hreduce := Node.reduce_of_value hroot hverdict
      have hinterpreted : (evaluating ids).interpreter false script =
          .ok (some (.residual v.toNode)) := by
        simp [evaluating, make, Interpreter.evaluator, hreduce]
      simp only [result, run, hinterpreted]
      exact build_literal ids v
  | error stop =>
      obtain ⟨more, hreduce⟩ := Node.reduce_of_stop hroot hverdict
      refine .inr ⟨stop, more.map .ofFinding, rfl, ?_⟩
      have hinterpreted : (evaluating ids).interpreter false script =
          .ok (some (.diagnostics (.ofFinding (stop.report []) :: more.map .ofFinding))) := by
        simp [evaluating, make, Interpreter.evaluator, hreduce]
      simp only [result, run, hinterpreted]

/-- What stands behind the operand that decides is never looked at, though it has no compiled
form. -/
def shieldedUnknown : Node :=
  .operation .or [.boolean true, .missing none, .unrecognized "foobar" ""]

theorem run_evaluating_shieldedUnknown :
    shieldedUnknown.isFunction = false ∧
      shieldedUnknown.compile .standard = .error (.unknownNode []) ∧
      ((evaluating .standard).run false shieldedUnknown).result =
        .ok { code := Text.toBytes "true", tree := some (.boolean true), diagnostics := [] } := by
  have hverdict : shieldedUnknown.verdict = .ok (.boolean true) := rfl
  refine ⟨rfl, rfl, ?_⟩
  rcases run_evaluating .standard shieldedUnknown rfl with ⟨v, hv, hresult⟩ | ⟨stop, more, hstop, -⟩
  · obtain rfl := Except.ok.inj (hverdict.symm.trans hv)
    exact hresult
  · cases hverdict.symm.trans hstop

end Pipeline

end ScriptTree
