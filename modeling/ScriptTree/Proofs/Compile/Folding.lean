import ScriptTree.Proofs.Compile.Chain
import ScriptTree.Proofs.Script.Verdict

/-!
Folding a script to a literal agrees with compiling it: where no sum stands in the
script, the expression evaluates to the literal. Both sides look at the same operands,
so nothing after the operand that decides matters, and no name is ever read.
-/

namespace ScriptTree

open Identifier (Options)
open Js (Expr)
open Js.Expr (Evaluates)

theorem type_of_mismatchFrom?_eq_none {path : Path} {expected : ValueType} {i : Nat}
    {values : List Literal} (hnone : mismatchFrom? path expected i values = none) :
    ∀ v ∈ values, v.type = expected := by
  induction values generalizing i with
  | nil => simp
  | cons first rest ih =>
      rw [mismatchFrom?] at hnone
      split at hnone
      case isFalse => cases hnone
      case isTrue htype =>
        intro v hv
        rcases List.mem_cons.mp hv with rfl | hv
        · exact htype
        · exact ih hnone v hv

theorem allEqual_cons_result {path : Path} {first v : Literal} {others : List Literal}
    (hresult : (allEqual path (first :: others)).result = some v) :
    v = .boolean (others.all first.looselyEquals) := by
  rw [allEqual] at hresult
  split at hresult
  case h_1 => cases hresult
  case h_2 hnone =>
    have htype := type_of_mismatchFrom?_eq_none hnone
    have hall : others.all first.looselyEquals = others.all (·.equals first) := by
      rw [Bool.eq_iff_iff, List.all_eq_true, List.all_eq_true]
      refine forall₂_congr fun w hw => ?_
      rw [Literal.looselyEquals_comm, Literal.looselyEquals_of_type_eq (htype w hw)]
    rw [hall]
    exact (Option.some.inj hresult).symm

namespace Node

/-- Scripts without a sum at any depth. -/
inductive SumFree : Node → Prop
  | missing (expected : Option Kind) : SumFree (.missing expected)
  | boolean (value : Bool) : SumFree (.boolean value)
  | number (value : Number) : SumFree (.number value)
  | reference (name : ByteString) : SumFree (.reference name)
  | operation {op : Operation} {operands : List Node} (hop : op ≠ .sum)
      (hoperands : ∀ n ∈ operands, SumFree n) : SumFree (.operation op operands)
  | function (name : ByteString) (parameters : List Parameter) {body : Node}
      (hbody : SumFree body) : SumFree (.function name parameters body)
  | unrecognized (tag raw : ByteString) : SumFree (.unrecognized tag raw)

/-- Whatever literal the script evaluates to, at any path, is the value of its
expression. -/
def Folds (add : Number → Number → Number) (scope : ByteString → Option Literal)
    (ids : Options) (n : Node) : Prop :=
  ∀ ⦃path v e⦄, (n.evaluate path).result = some v → n.compile ids = .ok e →
    e.Evaluates add scope v

section Operands

variable {add : Number → Number → Number} {scope : ByteString → Option Literal}
  {ids : Options} {operands : List Node} {compiled : List Expr}

theorem evaluates_of_decideFrom {path : Path} {identity : Bool} {i : Nat} {v : Literal}
    (hfolds : ∀ n ∈ operands, n.Folds add scope ids)
    (hresult : (decideFrom path identity i operands).result = some v)
    (hcompiled : List.Forall₂ (fun n e => n.compile ids = .ok e) operands compiled) :
    (chainOr (.boolean identity) (.logical identity) compiled).Evaluates add scope v := by
  induction hcompiled generalizing i with
  | nil =>
      obtain rfl : .boolean identity = v := Option.some.inj hresult
      exact Expr.evaluates_boolean identity
  | @cons n e rest others hn hrest ih =>
      rw [decideFrom_cons, Evaluation.result_andThen, Option.bind_eq_some_iff] at hresult
      obtain ⟨w, hvalue, hruled⟩ := hresult
      have hfirst := hfolds n (by simp) hvalue hn
      cases w with
      | number x => cases hruled
      | boolean b =>
          by_cases hdecides : b = identity
          · subst b
            -- the rest decides, and it is empty only if the last operand stands
            have hlater : (decideFrom path identity (i + 1) rest).result = some v := by
              rwa [ruled, if_pos rfl] at hruled
            have hrestValue := ih (fun m hm => hfolds m (by simp [hm])) hlater
            cases hrest with
            | nil =>
                obtain rfl : .boolean identity = v := Option.some.inj hlater
                exact hfirst
            | cons _ _ =>
                have htruth : (Literal.boolean identity).truthy = identity := rfl
                rw [Evaluates, chainOr, chain, Expr.evaluate_logical_of_eq hfirst htruth]
                exact hrestValue
          · rw [ruled, if_neg hdecides] at hruled
            obtain rfl : .boolean b = v := Option.some.inj hruled
            have htruth : (Literal.boolean b).truthy = !identity := Bool.eq_not_of_ne hdecides
            cases others with
            | nil => exact hfirst
            | cons _ _ => exact Expr.evaluate_logical_of_ne hfirst htruth

theorem length_of_operandsFrom {path : Path} {i : Nat} {values : List Literal}
    (hresult : (operandsFrom path i operands).result = some values) :
    values.length = operands.length := by
  induction operands generalizing i values with
  | nil =>
      obtain rfl : [] = values := Option.some.inj hresult
      rfl
  | cons n rest ih =>
      obtain ⟨v, later, _, hlater, rfl⟩ := operandsFrom_cons_result hresult
      simp [ih hlater]

theorem evaluates_of_operandsFrom {path : Path} {i : Nat} {values : List Literal}
    (hfolds : ∀ n ∈ operands, n.Folds add scope ids)
    (hresult : (operandsFrom path i operands).result = some values)
    (hcompiled : List.Forall₂ (fun n e => n.compile ids = .ok e) operands compiled) :
    List.Forall₂ (Evaluates add scope) compiled values := by
  induction hcompiled generalizing i values with
  | nil =>
      obtain rfl : [] = values := Option.some.inj hresult
      exact .nil
  | @cons n e rest others hn hrest ih =>
      obtain ⟨v, later, hvalue, hlater, rfl⟩ := operandsFrom_cons_result hresult
      exact .cons (hfolds n (by simp) hvalue hn)
        (ih (fun m hm => hfolds m (by simp [hm])) hlater)

theorem folds_logical {op : Operation} {identity : Bool}
    (hevaluate : ∀ path, (operation op operands).evaluate path =
      decideFrom path identity 0 operands)
    (hjoin : op.join = chainOr (.boolean identity) (.logical identity))
    (hop : op ≠ .equal) (hfolds : ∀ n ∈ operands, n.Folds add scope ids) :
    (operation op operands).Folds add scope ids := by
  intro path v e hresult hcompile
  obtain ⟨compiled, hcompiled, rfl⟩ :=
    exists_compileAll_of_compile (by simp [hop]) hcompile
  rw [hevaluate] at hresult
  rw [hjoin]
  exact evaluates_of_decideFrom hfolds hresult (compileAll_eq_ok_iff.mp hcompiled)

theorem folds_equal (hfolds : ∀ n ∈ operands, n.Folds add scope ids) :
    (operation .equal operands).Folds add scope ids := by
  intro path v e hresult hcompile
  rw [evaluate] at hresult
  cases hvalues : (operandsFrom path 0 operands).result with
  | none => simp [hvalues] at hresult
  | some values =>
      have hequal : (allEqual path values).result = some v := by
        simpa [hvalues, Evaluation.after] using hresult
      by_cases hlength : operands.length = 1
      · -- the operand of a lone equality is compiled by neither side
        rw [compile_operation, if_pos ⟨rfl, hlength⟩] at hcompile
        obtain rfl : .boolean true = e := Except.ok.inj hcompile
        rw [← length_of_operandsFrom hvalues] at hlength
        obtain ⟨w, rfl⟩ := List.length_eq_one_iff.mp hlength
        rw [allEqual_cons_result hequal]
        exact Expr.evaluates_boolean true
      · obtain ⟨compiled, hcompiled, rfl⟩ :=
          exists_compileAll_of_compile (by simp [hlength]) hcompile
        have hpointwise := evaluates_of_operandsFrom hfolds hvalues
          (compileAll_eq_ok_iff.mp hcompiled)
        cases hpointwise with
        | nil =>
            obtain rfl : .boolean true = v := Option.some.inj hequal
            exact Expr.evaluates_boolean true
        | cons hfirst hothers =>
            rw [allEqual_cons_result hequal]
            exact evaluates_comparisons hfirst hothers

end Operands

/-- Where no sum stands, evaluation and compilation agree at every place of a script. -/
theorem folds_of_sumFree (add : Number → Number → Number)
    (scope : ByteString → Option Literal) (ids : Options) {n : Node}
    (hsum : n.SumFree) : n.Folds add scope ids := by
  induction hsum with
  | missing expected =>
      intro path v e hresult
      cases hresult
  | boolean value =>
      intro path v e hresult hcompile
      obtain rfl := Option.some.inj hresult
      obtain rfl := Except.ok.inj hcompile
      exact Expr.evaluates_boolean value
  | number value =>
      intro path v e hresult hcompile
      obtain rfl := Option.some.inj hresult
      obtain rfl := Except.ok.inj hcompile
      exact Expr.evaluates_number value
  | reference name =>
      intro path v e hresult
      cases hresult
  | @operation op operands hop _ ih =>
      cases op with
      | and => exact folds_logical (fun _ => rfl) rfl (by simp) ih
      | or => exact folds_logical (fun _ => rfl) rfl (by simp) ih
      | sum => contradiction
      | equal => exact folds_equal ih
  | function name parameters _ _ =>
      intro path v e hresult
      cases hresult
  | unrecognized tag raw =>
      intro path v e hresult
      cases hresult

theorem result_of_reduce {n : Node} {value : Literal}
    (hreduce : n.reduce = .reduced value) : (n.evaluate []).result = some value := by
  unfold reduce at hreduce
  split at hreduce
  case isTrue => cases hreduce
  case isFalse =>
    simp only at hreduce
    split at hreduce
    case isTrue => cases hreduce
    case isFalse =>
      split at hreduce
      case h_2 => cases hreduce
      case h_1 hresult =>
        rw [hresult]
        exact congrArg some (Reduction.reduced.inj hreduce)

/-- If a script without sums is folded to a literal and compiles, its expression
evaluates to that literal where no name is bound at all. -/
theorem reduce_agrees_with_compile (add : Number → Number → Number) (ids : Options)
    (n : Node) (value : Literal) (e : Expr) (hsum : n.SumFree)
    (hreduce : n.reduce = .reduced value) (hcompile : n.compile ids = .ok e) :
    e.evaluate add (fun _ => none) = .ok (.primitive value) :=
  folds_of_sumFree add (fun _ => none) ids hsum (result_of_reduce hreduce) hcompile

def decidedEarly : Node :=
  operation .and [
    operation .equal [number .zero, number (.assemble true 0)],
    operation .or [boolean true, reference "x", function "f" [] (reference "y")],
    operation .equal [operation .and [boolean false, missing none]]]

theorem reduce_agrees_with_compile_decidedEarly :
    decidedEarly.reduce = .reduced (.boolean true) ∧
      ∃ e, decidedEarly.compile .standard = .ok e ∧
        e.evaluate Number.add (fun _ => none) = .ok (.primitive (.boolean true)) := by
  have hsum : decidedEarly.SumFree := by grind [SumFree, decidedEarly]
  have hreduce : decidedEarly.reduce = .reduced (.boolean true) := by rfl
  exact ⟨hreduce, _, rfl,
    reduce_agrees_with_compile _ .standard decidedEarly _ _ hsum hreduce rfl⟩

end Node

end ScriptTree
