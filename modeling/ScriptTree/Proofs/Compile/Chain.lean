import ScriptTree.Compile
import ScriptTree.Proofs.Js.Evaluation

/-!
Values of the chains that operations compile to. A chain groups to the right, so the
operand that decides a logical chain is reached past the ones that do not, and a
comparison with the first operand stands for each pair. There is no chain if an operand
does not compile: the first one that fails tells how.
-/

namespace ScriptTree

open Identifier (Options)
open Js (Expr)
open Js.Expr (Evaluates)

variable {add : Number → Number → Number} {scope : ByteString → Option Literal}

theorem evaluates_chain_logical {identity : Bool} {first : Expr} {v : Literal}
    {rest : List Expr} {values : List Literal}
    (hfirst : first.Evaluates add scope v)
    (hrest : List.Forall₂ (Evaluates add scope) rest values) :
    (chain (.logical identity) first rest).Evaluates add scope
      (decided identity (v :: values)) := by
  induction hrest generalizing first v with
  | nil =>
      have hself : decided identity [v] = v := by
        cases htruth : v.truthy <;> cases identity <;> simp [decided, htruth]
      rw [hself]
      exact hfirst
  | cons hnext _ ih =>
      by_cases htruth : v.truthy = identity
      · rw [decided_cons_of_eq htruth (by simp), Evaluates, chain,
          Expr.evaluate_logical_of_eq hfirst htruth]
        exact ih hnext
      · have hdecides : v.truthy = !identity := by
          cases hv : v.truthy <;> cases identity <;> simp_all
        rw [decided_cons_of_ne hdecides, chain]
        exact Expr.evaluate_logical_of_ne hfirst hdecides

theorem evaluates_chainOr_logical (identity : Bool) {operands : List Expr}
    {values : List Literal}
    (hoperands : List.Forall₂ (Evaluates add scope) operands values) :
    (chainOr (.boolean identity) (.logical identity) operands).Evaluates add scope
      (decided identity values) := by
  cases hoperands with
  | nil => exact Expr.evaluates_boolean identity
  | cons hfirst hrest => exact evaluates_chain_logical hfirst hrest

theorem evaluates_chain_add {first : Expr} {v : Literal}
    {rest : List Expr} {values : List Literal}
    (hfirst : first.Evaluates add scope v)
    (hrest : List.Forall₂ (Evaluates add scope) rest values) :
    (chain .add first rest).Evaluates add scope (totalOf add (v :: values)) := by
  induction hrest generalizing first v with
  | nil => exact hfirst
  | cons hnext _ ih => exact Expr.evaluates_add hfirst (ih hnext)

theorem evaluates_comparisons {first : Expr} {v : Literal}
    {others : List Expr} {values : List Literal}
    (hfirst : first.Evaluates add scope v)
    (hothers : List.Forall₂ (Evaluates add scope) others values) :
    (comparisons (first :: others)).Evaluates add scope
      (.boolean (values.all v.looselyEquals)) := by
  have htests : List.Forall₂ (Evaluates add scope)
      (others.map (.binary .equal first))
      ((values.map v.looselyEquals).map .boolean) := by
    rw [List.map_map, List.forall₂_map_left_iff, List.forall₂_map_right_iff]
    exact hothers.imp fun _ _ hother => Expr.evaluates_equal hfirst hother
  have hchain := evaluates_chainOr_logical true htests
  rw [decided_map_boolean, List.all_map] at hchain
  exact hchain

theorem evaluates_join (op : Operation) {operands : List Expr} {values : List Literal}
    (hoperands : List.Forall₂ (Evaluates add scope) operands values) :
    (op.join operands).Evaluates add scope (op.valueOf add values) := by
  cases op with
  | and => exact evaluates_chainOr_logical true hoperands
  | or => exact evaluates_chainOr_logical false hoperands
  | sum =>
      cases hoperands with
      | nil => exact Expr.evaluates_number .zero
      | cons hfirst hrest => exact evaluates_chain_add hfirst hrest
  | equal =>
      cases hoperands with
      | nil => exact Expr.evaluates_boolean true
      | cons hfirst hrest =>
          rw [Operation.valueOf, pairwiseEqual_cons]
          exact evaluates_comparisons hfirst hrest

namespace Node

theorem compileAll_eq_ok_iff {ids : Options} {operands : List Node}
    {compiled : List Expr} :
    compileAll ids operands = .ok compiled ↔
      List.Forall₂ (fun n e => n.compile ids = .ok e) operands compiled := by
  induction operands generalizing compiled with
  | nil =>
      rw [compileAll, List.forall₂_nil_left_iff, Except.ok.injEq]
      exact eq_comm
  | cons n rest ih =>
      rw [compileAll, List.forall₂_cons_left_iff]
      cases hfirst : n.compile ids with
      | error cause => simp [bind, Except.bind]
      | ok first =>
          cases hothers : compileAll ids rest with
          | error cause => simp [← ih, hothers, bind, Except.bind]
          | ok others =>
              simp only [← ih, hothers, bind, Except.bind, pure, Except.pure,
                Except.ok.injEq, exists_and_left, exists_eq_left']
              exact eq_comm

/-- What holds of the expression of each operand holds of all expressions, in their order. -/
theorem exists_compileAll_of_forall {α : Type} {ids : Options} {operands : List Node}
    {f : Node → α} {R : Expr → α → Prop}
    (hoperands : ∀ n ∈ operands, ∃ e, n.compile ids = .ok e ∧ R e (f n)) :
    ∃ compiled, compileAll ids operands = .ok compiled ∧
      List.Forall₂ R compiled (operands.map f) := by
  induction operands with
  | nil => exact ⟨[], rfl, .nil⟩
  | cons n rest ih =>
      obtain ⟨first, hfirst, hholds⟩ := hoperands n (by simp)
      obtain ⟨others, hothers, hall⟩ :=
        ih fun other hother => hoperands other (List.mem_cons_of_mem _ hother)
      refine ⟨first :: others, ?_, .cons hholds hall⟩
      rw [compileAll_eq_ok_iff] at hothers ⊢
      exact .cons hfirst hothers

/-- An operation is joined from its compiled operands; an equality with one operand
does not look at it. -/
theorem compile_operation (ids : Options) (op : Operation) (operands : List Node) :
    (operation op operands).compile ids =
      if op = .equal ∧ operands.length = 1 then .ok (.boolean true)
      else (compileAll ids operands).map op.join := by
  have hmap : (do
      let compiled ← compileAll ids operands
      return op.join compiled) = (compileAll ids operands).map op.join := by
    cases compileAll ids operands <;> rfl
  by_cases hlone : op = .equal ∧ operands.length = 1
  · obtain ⟨rfl, hlength⟩ := hlone
    obtain ⟨n, rfl⟩ := List.length_eq_one_iff.mp hlength
    simp [compile]
  · rw [if_neg hlone, ← hmap]
    rw [compile]
    intro n hop hoperands
    exact hlone ⟨hop, by rw [hoperands]; rfl⟩

theorem exists_compileAll_of_compile {ids : Options} {op : Operation}
    {operands : List Node} {e : Expr} (hlone : ¬ (op = .equal ∧ operands.length = 1))
    (hcompile : (operation op operands).compile ids = .ok e) :
    ∃ compiled, compileAll ids operands = .ok compiled ∧ op.join compiled = e := by
  rw [compile_operation, if_neg hlone] at hcompile
  cases hcompiled : compileAll ids operands with
  | error cause => simp [hcompiled, Except.map] at hcompile
  | ok compiled =>
      rw [hcompiled] at hcompile
      exact ⟨compiled, rfl, Except.ok.inj hcompile⟩

theorem exists_body_of_compile {ids : Options} {name : ByteString} {parameters : List Parameter}
    {body : Node} {e : Expr} (hcompile : (function name parameters body).compile ids = .ok e) :
    ∃ compiled, body.compile ids = .ok compiled ∧
      .named (ids.sanitize name) (parameters.map fun p => ids.sanitize p.name) [compiled] = e := by
  rw [compile] at hcompile
  cases hbody : body.compile ids with
  | error cause => simp [hbody, bind, Except.bind] at hcompile
  | ok compiled =>
      rw [hbody] at hcompile
      exact ⟨compiled, rfl, Except.ok.inj hcompile⟩

theorem compile_operation_of_compileAll {ids : Options} (op : Operation)
    {operands : List Node} {compiled : List Expr}
    (hcompiled : compileAll ids operands = .ok compiled) :
    (operation op operands).compile ids = .ok (op.join compiled) := by
  rw [compile_operation, hcompiled]
  split
  case isFalse => rfl
  case isTrue hlone =>
    obtain ⟨rfl, hlength⟩ := hlone
    have hlength := (compileAll_eq_ok_iff.mp hcompiled).length_eq ▸ hlength
    obtain ⟨e, rfl⟩ := List.length_eq_one_iff.mp hlength
    rfl

/-! Compilation fails with the first of its operands that fails. -/

theorem compileAll_cons (ids : Options) (n : Node) (rest : List Node) :
    compileAll ids (n :: rest) = do
      let first ← n.compile ids
      let others ← compileAll ids rest
      return first :: others := by
  rw [compileAll]

/-- The error of a compilation. -/
def failure? (ids : Options) (n : Node) : Option CompileError :=
  match n.compile ids with
  | .error cause => some cause
  | .ok _ => none

theorem failure?_eq_some_iff {ids : Options} {n : Node} {cause : CompileError} :
    n.failure? ids = some cause ↔ n.compile ids = .error cause := by
  unfold failure?
  cases n.compile ids <;> simp

theorem failure?_eq_none_iff {ids : Options} {n : Node} :
    n.failure? ids = none ↔ ∃ e, n.compile ids = .ok e := by
  unfold failure?
  cases n.compile ids <;> simp

theorem compileAll_eq_error_iff {ids : Options} {operands : List Node}
    {cause : CompileError} :
    compileAll ids operands = .error cause ↔
      operands.findSome? (failure? ids) = some cause := by
  induction operands with
  | nil => simp [compileAll]
  | cons n rest ih =>
      rw [compileAll_cons, List.findSome?_cons, failure?]
      cases n.compile ids with
      | error first => simp [bind, Except.bind]
      | ok e =>
          simp only [← ih]
          cases compileAll ids rest <;> simp [bind, Except.bind, pure, Except.pure]

theorem failure?_operation (ids : Options) (op : Operation) (operands : List Node) :
    (operation op operands).failure? ids =
      if op = .equal ∧ operands.length = 1 then none
      else operands.findSome? (failure? ids) := by
  rw [failure?, compile_operation]
  by_cases hlone : op = .equal ∧ operands.length = 1
  · rw [if_pos hlone, if_pos hlone]
  · rw [if_neg hlone, if_neg hlone]
    apply Option.ext
    intro cause
    rw [← compileAll_eq_error_iff]
    cases compileAll ids operands <;> simp [Except.map]

theorem failure?_function (ids : Options) (name : ByteString)
    (parameters : List Parameter) (body : Node) :
    (function name parameters body).failure? ids = body.failure? ids := by
  rw [failure?, compile, failure?]
  cases body.compile ids <;> rfl

end Node

end ScriptTree
