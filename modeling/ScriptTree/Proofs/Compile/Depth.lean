import ScriptTree.Proofs.Compile.Pairs

/-!
How deep the calls of a compilation go. An equality with three or more operands is handed on as a
conjunction of pairs, which is a larger tree than the equality itself, but compiling it takes no
more than a number of nested calls that can be told from the script. With that many the
compilation ends, and gives what the compiled operands are joined to.
-/

namespace ScriptTree

open Identifier (Options)
open Js (Expr)

/-- Work that may fail, and that is given up where its calls nest too deep. -/
abbrev Nesting := ExceptT CompileError Option

namespace Node

mutual

/-- Compilation step by step, with calls that nest at most so deep. -/
def compileWithin (ids : Options) : Nat → Node → Nesting Expr
  | 0, _ => ExceptT.mk none
  | _ + 1, missing _ => throw (.unknownNode [])
  | _ + 1, boolean value => return .boolean value
  | _ + 1, number value => return .number value
  | _ + 1, reference name => return .identifier (ids.sanitize name)
  | _ + 1, operation .equal [] | _ + 1, operation .equal [_] => return .boolean true
  | depth + 1, operation .equal [left, right] => do
    let l ← compileWithin ids depth left
    let r ← compileWithin ids depth right
    return .binary .equal l r
  | depth + 1, operation .equal (first :: second :: third :: rest) =>
    compileWithin ids depth (operation .and (pairsWith first (second :: third :: rest)))
  | _ + 1, operation op [] => liftExcept (identityOfTag op.tag)
  | depth + 1, operation _ [n] => compileWithin ids depth n
  | depth + 1, operation op (first :: second :: rest) => do
    let operator ← liftExcept (operatorOfTag op.tag)
    foldWithin ids operator depth first (second :: rest)
  | depth + 1, function name parameters body => do
    let compiled ← compileWithin ids depth body
    return .named (ids.sanitize name) (parameters.map (fun p => ids.sanitize p.name)) [compiled]
  | _ + 1, unrecognized tag _ => throw (.unknownNode tag)

def foldWithin (ids : Options) (op : Js.Operator) : Nat → Node → List Node → Nesting Expr
  | 0, _, _ => ExceptT.mk none
  | depth + 1, next, [] => compileWithin ids depth next
  | depth + 1, next, second :: rest => do
    let left ← compileWithin ids depth next
    let right ← foldWithin ids op depth second rest
    return .binary op left right

end

mutual

/-- A depth that the calls for a script do not go beyond. -/
def callDepth : Node → Nat
  | operation op operands =>
    callDepthOfAll operands +
      (if op = .equal then if 3 ≤ operands.length then operands.length + 2 else 1
      else operands.length + 1)
  | function _ _ body => callDepth body + 1
  | missing _ | boolean _ | number _ | reference _ | unrecognized _ _ => 1

def callDepthOfAll : List Node → Nat
  | [] => 0
  | n :: rest => max (callDepth n) (callDepthOfAll rest)

end

theorem callDepth_pos (n : Node) : 0 < n.callDepth := by
  cases n with
  | operation op operands =>
      rw [callDepth]
      split
      · split <;> omega
      · omega
  | _ => rw [callDepth]; omega

theorem callDepth_of_ne_equal {op : Operation} (hop : op ≠ .equal) (operands : List Node) :
    (operation op operands).callDepth = callDepthOfAll operands + (operands.length + 1) := by
  rw [callDepth, if_neg hop]

theorem callDepth_pair (left right : Node) :
    (operation .equal [left, right]).callDepth = max left.callDepth right.callDepth + 1 := by
  simp [callDepth, callDepthOfAll]

/-- The conjunction of pairs is the larger tree, but its calls go less deep. -/
theorem callDepth_pairsWith_lt {first : Node} {others : List Node} (hmany : 2 ≤ others.length) :
    (operation .and (pairsWith first others)).callDepth <
      (operation .equal (first :: others)).callDepth := by
  have hpairs := pairsWith_le callDepthOfAll.eq_1 callDepthOfAll.eq_2 callDepth_pair first others
  have hand : (operation .and (pairsWith first others)).callDepth =
      callDepthOfAll (pairsWith first others) + (others.length + 1) := by
    rw [callDepth_of_ne_equal (by simp), pairsWith, List.length_map]
  have hequal : (operation .equal (first :: others)).callDepth =
      callDepthOfAll (first :: others) + (others.length + 3) := by
    simp [callDepth, hmany]
  omega

end Node

/-! Work that comes to its result wherever it is not given up. -/

namespace Nesting

variable {α β : Type}

/-- The work gives this result or is given up, and is not given up under the condition. -/
structure Within (enough : Prop) (x : Nesting α) (result : Except CompileError α) : Prop where
  sound : x.run = none ∨ x.run = some result
  complete : enough → x.run = some result

variable {enough : Prop}

theorem within_of_run {x : Nesting α} {result : Except CompileError α}
    (hx : x.run = some result) : Within enough x result :=
  ⟨.inr hx, fun _ => hx⟩

theorem within_of_run_none {x : Nesting α} {result : Except CompileError α}
    (hx : x.run = none) (hshort : ¬ enough) : Within enough x result :=
  ⟨.inl hx, fun h => absurd h hshort⟩

theorem within_liftExcept (result : Except CompileError α) :
    Within enough (liftExcept result) result := by
  cases result <;> exact within_of_run rfl

theorem Within.mono {more : Prop} {x : Nesting α} {result : Except CompileError α}
    (hx : Within enough x result) (hmore : more → enough) : Within more x result :=
  ⟨hx.sound, fun h => hx.complete (hmore h)⟩

theorem Within.bind {x : Nesting α} {result : Except CompileError α} {f : α → Nesting β}
    {g : α → Except CompileError β} (hx : Within enough x result)
    (hf : ∀ a, Within enough (f a) (g a)) : Within enough (x >>= f) (result >>= g) := by
  have hrun : x.run = some result → Within enough (x >>= f) (result >>= g) := by
    intro hx
    cases result with
    | error cause =>
        apply within_of_run
        rw [ExceptT.run_bind, hx]
        rfl
    | ok a =>
        have hlater : (x >>= f).run = (f a).run := by
          rw [ExceptT.run_bind, hx]
          rfl
        exact ⟨hlater ▸ (hf a).sound, fun h => hlater ▸ (hf a).complete h⟩
  rcases hx.sound with hnone | hsome
  · refine within_of_run_none ?_ fun h => ?_
    · rw [ExceptT.run_bind, hnone]
      rfl
    · rw [hx.complete h] at hnone
      cases hnone
  · exact hrun hsome

end Nesting

namespace Node

open Nesting (Within within_of_run within_of_run_none within_liftExcept)

variable {ids : Options} {depth : Nat}

/-- Within a depth, a script and the operands of a chain give what they give step by step, or are
given up if the depth is less than the calls need. -/
structure Decided (ids : Options) (depth : Nat) : Prop where
  node : ∀ n : Node,
    Within (n.callDepth ≤ depth) (n.compileWithin ids depth) (n.compileByPairs ids)
  fold : ∀ op next rest,
    Within (callDepthOfAll (next :: rest) + (rest.length + 1) ≤ depth)
      (foldWithin ids op depth next rest) (foldByPairs ids op next rest)

theorem decided_zero (ids : Options) : Decided ids 0 := by
  constructor
  · intro n
    refine within_of_run_none ?_ (Nat.not_le_of_lt n.callDepth_pos)
    rw [compileWithin]
    rfl
  · intro op next rest
    refine within_of_run_none ?_ (by omega)
    rw [foldWithin]
    rfl

theorem Decided.operation (h : Decided ids depth) {op : Operation} (hop : op ≠ .equal)
    (operands : List Node) :
    Within ((operation op operands).callDepth ≤ depth + 1)
      ((operation op operands).compileWithin ids (depth + 1))
      ((operation op operands).compileByPairs ids) := by
  rw [callDepth_of_ne_equal hop]
  match operands with
  | [] =>
      rw [compileWithin, compileByPairs]
      · exact within_liftExcept _
      all_goals exact hop
  | [n] =>
      rw [compileWithin, compileByPairs]
      · refine (h.node n).mono fun hdepth => ?_
        rw [callDepthOfAll] at hdepth
        omega
      all_goals exact hop
  | first :: second :: rest =>
      rw [compileWithin, compileByPairs]
      · refine (within_liftExcept _).bind fun operator => ?_
        refine (h.fold operator first (second :: rest)).mono fun hdepth => ?_
        rw [List.length_cons] at hdepth
        omega
      · exact fun hequal => absurd hequal hop
      · exact fun _ _ hequal => absurd hequal hop
      · exact fun hequal => absurd hequal hop
      · exact fun _ _ hequal => absurd hequal hop

theorem Decided.equal (h : Decided ids depth) (operands : List Node) :
    Within ((Node.operation .equal operands).callDepth ≤ depth + 1)
      ((Node.operation .equal operands).compileWithin ids (depth + 1))
      ((Node.operation .equal operands).compileByPairs ids) := by
  match operands with
  | [] | [_] =>
      rw [compileWithin, compileByPairs]
      exact within_of_run rfl
  | [left, right] =>
      rw [compileWithin, compileByPairs, callDepth_pair]
      refine ((h.node left).mono (by omega)).bind fun l => ?_
      exact ((h.node right).mono (by omega)).bind fun r => within_of_run rfl
  | first :: second :: third :: rest =>
      have hless := @callDepth_pairsWith_lt first (second :: third :: rest) (by simp)
      rw [compileWithin, compileByPairs]
      exact (h.node _).mono (by omega)

theorem Decided.succ (h : Decided ids depth) : Decided ids (depth + 1) := by
  constructor
  · intro n
    cases n with
    | operation op operands =>
        by_cases hop : op = .equal
        · subst hop
          exact h.equal operands
        · exact h.operation hop operands
    | function name parameters body =>
        rw [compileWithin, compileByPairs, callDepth]
        exact ((h.node body).mono (by omega)).bind fun compiled => within_of_run rfl
    | _ =>
        rw [compileWithin, compileByPairs]
        exact within_of_run rfl
  · intro op next rest
    cases rest with
    | nil =>
        rw [foldWithin, foldByPairs]
        refine (h.node next).mono fun hdepth => ?_
        rw [callDepthOfAll] at hdepth
        omega
    | cons second rest =>
        rw [foldWithin, foldByPairs, callDepthOfAll, List.length_cons]
        refine ((h.node next).mono (by omega)).bind fun left => ?_
        exact ((h.fold op second rest).mono (by omega)).bind fun right => within_of_run rfl

theorem decided (ids : Options) (depth : Nat) : Decided ids depth := by
  induction depth with
  | zero => exact decided_zero ids
  | succ depth ih => exact ih.succ

/-- Compilation through pairs ends: with calls that may nest as deep as the script needs, or
deeper, it gives the compiled form or the error of the compilation, and with less it gives no
other result. -/
theorem compileWithin_ends (ids : Options) (n : Node) :
    (∀ extra, (n.compileWithin ids (n.callDepth + extra)).run = some (n.compile ids)) ∧
      ∀ depth, (n.compileWithin ids depth).run = none ∨
        (n.compileWithin ids depth).run = some (n.compile ids) := by
  rw [← compileByPairs_eq_compile]
  exact ⟨fun extra => ((decided ids _).node n).complete (Nat.le_add_right _ _),
    fun depth => ((decided ids depth).node n).sound⟩

end Node

end ScriptTree
