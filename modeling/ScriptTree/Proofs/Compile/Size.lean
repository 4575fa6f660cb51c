import ScriptTree.Proofs.Compile.Chain
import Mathlib.Algebra.BigOperators.Group.List.Basic
import Mathlib.Algebra.Order.Ring.Basic
import Mathlib.Tactic.Linarith
import Mathlib.Tactic.Ring

/-!
The size of compiled scripts. An equality with three or more operands compiles its first
operand once for each other one, so the size of an expression is bounded by a power of
the size of the script, with one more factor for each such equality within the first
operand of another. Equalities nested this way grow beyond every fixed power.
-/

namespace ScriptTree

open Identifier (Options)
open Js (Expr)

namespace Js

mutual

def Expr.size : Expr → Nat
  | .binary _ left right => left.size + right.size + 1
  | .function _ _ statements => sizeOfStatements statements + 1
  | .absent | .boolean _ | .number _ | .identifier _ | .bodiless _ => 1

def Statement.size : Statement → Nat
  | .absent => 0
  | .returned value => value.size

def sizeOfStatements : List Statement → Nat
  | [] => 0
  | s :: rest => s.size + sizeOfStatements rest

end

end Js

/-- The number of leaves of an operation, from those of its operands. An equality repeats
the first operand. -/
def Operation.leafCount (op : Operation) : List Nat → Nat
  | [] => 1
  | first :: others =>
    match op with
    | and | or | sum => first + others.sum
    | equal => if others.isEmpty then 1 else others.length * first + others.sum

namespace Node

mutual

def size : Node → Nat
  | operation _ operands => sizeOfAll operands + 1
  | function _ _ body => size body + 1
  | missing _ | boolean _ | number _ | reference _ | unrecognized _ _ => 1

def sizeOfAll : List Node → Nat
  | [] => 0
  | n :: rest => size n + sizeOfAll rest

end

mutual

/-- The number of literals and identifiers of an elementary script, once compiled. -/
def leafCount : Node → Nat
  | operation op operands => op.leafCount (leafCounts operands)
  | missing _ | boolean _ | number _ | reference _ | function _ _ _ | unrecognized _ _ => 1

def leafCounts : List Node → List Nat
  | [] => []
  | n :: rest => leafCount n :: leafCounts rest

end

mutual

/-- The number of equalities with three or more operands of which each stands within the
first operand of the one before. -/
def copyDepth : Node → Nat
  | operation .equal (first :: second :: third :: rest) =>
    max (copyDepth first + 1) (copyDepthOfAll (second :: third :: rest))
  | operation _ operands => copyDepthOfAll operands
  | function _ _ body => copyDepth body
  | missing _ | boolean _ | number _ | reference _ | unrecognized _ _ => 0

def copyDepthOfAll : List Node → Nat
  | [] => 0
  | n :: rest => max (copyDepth n) (copyDepthOfAll rest)

end

theorem size_pos (n : Node) : 0 < n.size := by
  cases n <;> simp [size]

theorem length_le_sizeOfAll (operands : List Node) :
    operands.length ≤ sizeOfAll operands := by
  induction operands with
  | nil => simp
  | cons n rest ih =>
      have hpos := n.size_pos
      rw [sizeOfAll, List.length_cons]
      omega

theorem leafCounts_eq_map (operands : List Node) :
    leafCounts operands = operands.map leafCount := by
  induction operands with
  | nil => rfl
  | cons n rest ih => rw [leafCounts, ih, List.map_cons]

theorem length_leafCounts (operands : List Node) :
    (leafCounts operands).length = operands.length := by
  rw [leafCounts_eq_map, List.length_map]

theorem copyDepth_le_copyDepthOfAll {operands : List Node} {n : Node}
    (hn : n ∈ operands) : n.copyDepth ≤ copyDepthOfAll operands := by
  induction operands with
  | nil => cases hn
  | cons first rest ih =>
      rw [copyDepthOfAll]
      rcases List.mem_cons.mp hn with rfl | hn
      · exact Nat.le_max_left _ _
      · exact Nat.le_trans (ih hn) (Nat.le_max_right _ _)

/-- An operation has a single leaf, or the leaves of its operands, or else it is an
equality that copies its first operand for each of two or more others. -/
theorem leafCount_operation_cases (op : Operation) (operands : List Node) :
    (operation op operands).leafCount = 1 ∨
      ((operation op operands).leafCount = (leafCounts operands).sum ∧
        (operation op operands).copyDepth = copyDepthOfAll operands) ∨
      ∃ first others, operands = first :: others ∧
        (operation op operands).leafCount =
          others.length * first.leafCount + (leafCounts others).sum ∧
        (operation op operands).copyDepth =
          max (first.copyDepth + 1) (copyDepthOfAll others) := by
  cases operands with
  | nil => exact .inl (by rw [leafCount, leafCounts]; rfl)
  | cons first others =>
      by_cases hop : op = .equal
      · subst hop
        cases others with
        | nil => exact .inl (by rw [leafCount, leafCounts, leafCounts]; rfl)
        | cons second rest =>
            cases rest with
            | nil =>
                refine .inr (.inl ⟨?_, ?_⟩)
                · simp [leafCount, leafCounts, Operation.leafCount]
                · rw [copyDepth]
                  simp
            | cons third rest =>
                refine .inr (.inr ⟨first, second :: third :: rest, rfl, ?_, ?_⟩)
                · simp [leafCount, leafCounts, Operation.leafCount, length_leafCounts]
                · rw [copyDepth]
      · refine .inr (.inl ⟨?_, ?_⟩)
        · rw [leafCount, leafCounts, List.sum_cons]
          cases op with
          | and => rfl
          | or => rfl
          | sum => rfl
          | equal => contradiction
        · rw [copyDepth]
          exact fun _ _ _ _ hequal => absurd hequal hop

/-! Bounds on the number of leaves. -/

section Bounds

theorem mul_pow_add_pow_le (a b m : Nat) :
    2 * (b * a ^ (m + 1)) + b ^ (m + 1 + 1) ≤ (a + b) ^ (m + 1 + 1) := by
  -- whichever of the two is larger, the product below holds `b * a ^ (m + 1)` once more
  have hmixed : b * a ^ (m + 1) ≤ a ^ (m + 1) * a + b ^ (m + 1) * a := by
    rcases Nat.le_total b a with hle | hle
    · rw [Nat.mul_comm (a ^ (m + 1))]
      exact (Nat.mul_le_mul_right _ hle).trans (Nat.le_add_right _ _)
    · have hpow := Nat.mul_le_mul_left (a * b) (Nat.pow_le_pow_left hle m)
      have hleft : b * a ^ (m + 1) = a * b * a ^ m := by ring
      have hright : b ^ (m + 1) * a = a * b * b ^ m := by ring
      rw [hleft, hright]
      exact hpow.trans (Nat.le_add_left _ _)
  calc 2 * (b * a ^ (m + 1)) + b ^ (m + 1 + 1)
      ≤ (a ^ (m + 1) + b ^ (m + 1)) * (a + b) := by
        rw [pow_succ b (m + 1)]
        linarith
    _ ≤ (a + b) ^ (m + 1) * (a + b) :=
        Nat.mul_le_mul_right _ (pow_add_pow_le (Nat.zero_le _) (Nat.zero_le _) (by omega))

theorem pow_add_self_le {m : Nat} (hm : 2 ≤ m) (x : Nat) : x ^ m + x ≤ (x + 1) ^ m := by
  obtain ⟨m, rfl⟩ : ∃ k, m = k + 1 := ⟨m - 1, by omega⟩
  have hpow : x ^ m + 1 ^ m ≤ (x + 1) ^ m :=
    pow_add_pow_le (Nat.zero_le _) (Nat.zero_le _) (by omega)
  calc x ^ (m + 1) + x
      ≤ (x ^ m + 1 ^ m) * (x + 1) := by
        rw [pow_succ, one_pow]
        linarith [Nat.zero_le (x ^ m)]
    _ ≤ (x + 1) ^ m * (x + 1) := Nat.mul_le_mul_right _ hpow

theorem sum_leafCounts_le {operands : List Node} {m : Nat} (hm : m ≠ 0)
    (hoperands : ∀ n ∈ operands, n.leafCount ≤ n.size ^ m) :
    (leafCounts operands).sum ≤ sizeOfAll operands ^ m := by
  induction operands with
  | nil => simp [leafCounts]
  | cons n rest ih =>
      have hfirst := hoperands n (by simp)
      have hrest := ih fun other hother => hoperands other (List.mem_cons_of_mem _ hother)
      rw [leafCounts, List.sum_cons, sizeOfAll]
      exact (Nat.add_le_add hfirst hrest).trans
        (pow_add_pow_le (Nat.zero_le _) (Nat.zero_le _) hm)

theorem two_mul_sum_leafCounts_le {operands : List Node} {m : Nat} (hm : m ≠ 0)
    (hoperands : ∀ n ∈ operands, 2 * n.leafCount ≤ n.size ^ m + 1) :
    2 * (leafCounts operands).sum ≤ sizeOfAll operands ^ m + operands.length := by
  induction operands with
  | nil => simp [leafCounts]
  | cons n rest ih =>
      have hfirst := hoperands n (by simp)
      have hrest := ih fun other hother => hoperands other (List.mem_cons_of_mem _ hother)
      have hpow : n.size ^ m + sizeOfAll rest ^ m ≤ (n.size + sizeOfAll rest) ^ m :=
        pow_add_pow_le (Nat.zero_le _) (Nat.zero_le _) hm
      rw [leafCounts, List.sum_cons, sizeOfAll, List.length_cons]
      omega

theorem two_mul_sum_leafCounts_le_two_pow {operands : List Node}
    (hoperands : ∀ n ∈ operands, 2 * n.leafCount ≤ 2 ^ n.size) :
    2 * (leafCounts operands).sum ≤ 2 ^ sizeOfAll operands := by
  induction operands with
  | nil => simp [leafCounts]
  | cons n rest ih =>
      have hfirst := hoperands n (by simp)
      have hrest := ih fun other hother => hoperands other (List.mem_cons_of_mem _ hother)
      rw [leafCounts, List.sum_cons, sizeOfAll, pow_add]
      cases rest with
      | nil => simpa [leafCounts, sizeOfAll] using hfirst
      | cons next rest =>
          have htwo : 2 ≤ 2 ^ n.size := Nat.le_self_pow n.size_pos.ne' 2
          have htwoRest : 2 ≤ 2 ^ sizeOfAll (next :: rest) :=
            Nat.le_self_pow (by have := next.size_pos; rw [sizeOfAll]; omega) 2
          nlinarith

/-- The leaves of a script are at most as many as the power of its size. -/
theorem leafCount_le_pow (n : Node) {depth : Nat} (hdepth : n.copyDepth ≤ depth) :
    n.leafCount ≤ n.size ^ (depth + 1) := by
  induction n generalizing depth with
  | operation op operands ih =>
      rcases leafCount_operation_cases op operands with
        hone | ⟨hleaves, hcopy⟩ | ⟨first, others, rfl, hleaves, hcopy⟩
      · rw [hone]
        exact Nat.one_le_pow _ _ (size_pos _)
      · have hsum : (leafCounts operands).sum ≤ sizeOfAll operands ^ (depth + 1) :=
          sum_leafCounts_le (by omega) fun n hn => by
            have hle := copyDepth_le_copyDepthOfAll hn
            exact ih n hn (by omega)
        rw [hleaves, size]
        exact hsum.trans (Nat.pow_le_pow_left (by omega) _)
      · obtain ⟨depth, rfl⟩ : ∃ inner, depth = inner + 1 := ⟨depth - 1, by omega⟩
        have hfirst : first.leafCount ≤ first.size ^ (depth + 1) :=
          ih first (by simp) (by omega)
        have hothers : (leafCounts others).sum ≤ sizeOfAll others ^ (depth + 1 + 1) :=
          sum_leafCounts_le (by omega) fun n hn => by
            have hle := copyDepth_le_copyDepthOfAll hn
            exact ih n (by simp [hn]) (by omega)
        have hcopies := Nat.mul_le_mul (length_le_sizeOfAll others) hfirst
        have hpow := mul_pow_add_pow_le first.size (sizeOfAll others) depth
        rw [hleaves, size, sizeOfAll]
        calc others.length * first.leafCount + (leafCounts others).sum
            ≤ (first.size + sizeOfAll others) ^ (depth + 1 + 1) := by omega
          _ ≤ (first.size + sizeOfAll others + 1) ^ (depth + 1 + 1) :=
              Nat.pow_le_pow_left (by omega) _
  | missing expected => simp [leafCount, size]
  | boolean value => simp [leafCount, size]
  | number value => simp [leafCount, size]
  | reference name => simp [leafCount, size]
  | unrecognized tag raw => simp [leafCount, size]
  | function name parameters body ih =>
      rw [leafCount]
      exact Nat.one_le_pow _ _ (size_pos _)

theorem two_le_pow_add_one (n : Node) (m : Nat) : 2 ≤ n.size ^ m + 1 := by
  have hpow := Nat.one_le_pow m n.size n.size_pos
  omega

/-- From the square on, the power bounds the leaves twice over. -/
theorem two_mul_leafCount_le_pow (n : Node) {depth : Nat} (hpos : 1 ≤ depth)
    (hdepth : n.copyDepth ≤ depth) : 2 * n.leafCount ≤ n.size ^ (depth + 1) + 1 := by
  induction n with
  | operation op operands ih =>
      rcases leafCount_operation_cases op operands with
        hone | ⟨hleaves, hcopy⟩ | ⟨first, others, rfl, hleaves, hcopy⟩
      · rw [hone]
        exact two_le_pow_add_one _ _
      · have hsum : 2 * (leafCounts operands).sum ≤
            sizeOfAll operands ^ (depth + 1) + operands.length :=
          two_mul_sum_leafCounts_le (by omega) fun n hn => by
            have hle := copyDepth_le_copyDepthOfAll hn
            exact ih n hn (by omega)
        have hlength := length_le_sizeOfAll operands
        have hpow := pow_add_self_le (show 2 ≤ depth + 1 by omega) (sizeOfAll operands)
        rw [hleaves, size]
        omega
      · -- the copies have one nesting less, so the smaller power is enough for them
        obtain ⟨depth, rfl⟩ : ∃ inner, depth = inner + 1 := ⟨depth - 1, by omega⟩
        have hfirst : first.leafCount ≤ first.size ^ (depth + 1) :=
          first.leafCount_le_pow (by omega)
        have hothers : 2 * (leafCounts others).sum ≤
            sizeOfAll others ^ (depth + 1 + 1) + others.length :=
          two_mul_sum_leafCounts_le (by omega) fun n hn => by
            have hle := copyDepth_le_copyDepthOfAll hn
            exact ih n (by simp [hn]) (by omega)
        have hlength := length_le_sizeOfAll others
        have hcopies := Nat.mul_le_mul hlength hfirst
        have hpow := mul_pow_add_pow_le first.size (sizeOfAll others) depth
        have hself := pow_add_self_le (show 2 ≤ depth + 1 + 1 by omega)
          (first.size + sizeOfAll others)
        rw [hleaves, size, sizeOfAll]
        omega
  | missing expected => exact two_le_pow_add_one _ _
  | boolean value => exact two_le_pow_add_one _ _
  | number value => exact two_le_pow_add_one _ _
  | reference name => exact two_le_pow_add_one _ _
  | unrecognized tag raw => exact two_le_pow_add_one _ _
  | function name parameters body ih => exact two_le_pow_add_one _ _

theorem two_mul_leafCount_le_two_pow (n : Node) : 2 * n.leafCount ≤ 2 ^ n.size := by
  induction n with
  | operation op operands ih =>
      rcases leafCount_operation_cases op operands with
        hone | ⟨hleaves, -⟩ | ⟨first, others, rfl, hleaves, -⟩
      · rw [hone]
        exact Nat.le_self_pow (size_pos _).ne' 2
      · have hsum := two_mul_sum_leafCounts_le_two_pow ih
        rw [hleaves, size, pow_succ]
        omega
      · have hfirst := ih first (by simp)
        have hothers := two_mul_sum_leafCounts_le_two_pow fun n hn =>
          ih n (List.mem_cons_of_mem _ hn)
        have hlength : others.length ≤ 2 ^ sizeOfAll others :=
          (length_le_sizeOfAll others).trans Nat.lt_two_pow_self.le
        have hcopies := Nat.mul_le_mul hlength hfirst
        have hone := Nat.one_le_two_pow (n := first.size)
        rw [hleaves, size, sizeOfAll, pow_succ, pow_add]
        nlinarith
  | missing expected => simp [leafCount, size]
  | boolean value => simp [leafCount, size]
  | number value => simp [leafCount, size]
  | reference name => simp [leafCount, size]
  | unrecognized tag raw => simp [leafCount, size]
  | function name parameters body ih =>
      rw [leafCount]
      exact Nat.le_self_pow (size_pos _).ne' 2

end Bounds

end Node

/-! An expression of binary operators has one leaf more than operators. -/

/-- The size of an expression without functions, by its number of leaves. -/
def Js.Expr.HasLeaves (e : Expr) (count : Nat) : Prop := e.size + 1 = 2 * count

theorem hasLeaves_chain (op : Js.Operator) {first : Expr} {count : Nat} {rest : List Expr}
    {counts : List Nat} (hfirst : first.HasLeaves count)
    (hrest : List.Forall₂ Expr.HasLeaves rest counts) :
    (chain op first rest).HasLeaves (count + counts.sum) := by
  induction hrest generalizing first count with
  | nil => exact hfirst
  | cons hnext _ ih =>
      have hchain := ih hnext
      rw [Expr.HasLeaves] at hfirst hchain ⊢
      rw [chain, Expr.size, List.sum_cons]
      omega

theorem hasLeaves_chainOr {identity : Expr} (op : Js.Operator) {operands : List Expr}
    {counts : List Nat} (hne : operands ≠ [])
    (hoperands : List.Forall₂ Expr.HasLeaves operands counts) :
    (chainOr identity op operands).HasLeaves counts.sum := by
  cases hoperands with
  | nil => contradiction
  | cons hfirst hrest => exact hasLeaves_chain op hfirst hrest

theorem hasLeaves_comparisons {first : Expr} {count : Nat} {others : List Expr}
    {counts : List Nat} (hne : others ≠ []) (hfirst : first.HasLeaves count)
    (hothers : List.Forall₂ Expr.HasLeaves others counts) :
    (comparisons (first :: others)).HasLeaves (counts.length * count + counts.sum) := by
  have hpairs : List.Forall₂ Expr.HasLeaves (others.map (.binary .equal first))
      (counts.map (count + ·)) := by
    rw [List.forall₂_map_left_iff, List.forall₂_map_right_iff]
    refine hothers.imp fun e n he => ?_
    rw [Expr.HasLeaves] at hfirst he ⊢
    rw [Expr.size]
    omega
  have hsum : (counts.map (count + ·)).sum = counts.length * count + counts.sum := by
    rw [List.sum_map_add]
    simp
  rw [comparisons, ← hsum]
  exact hasLeaves_chainOr .and (by simpa using hne) hpairs

theorem hasLeaves_join (op : Operation) {operands : List Expr} {counts : List Nat}
    (hoperands : List.Forall₂ Expr.HasLeaves operands counts) :
    (op.join operands).HasLeaves (op.leafCount counts) := by
  cases hoperands with
  | nil => cases op <;> rfl
  | cons hfirst hrest =>
      cases op with
      | and => exact hasLeaves_chain .and hfirst hrest
      | or => exact hasLeaves_chain .or hfirst hrest
      | sum => exact hasLeaves_chain .add hfirst hrest
      | equal =>
          cases hrest with
          | nil => rfl
          | cons hsecond hrest =>
              exact hasLeaves_comparisons (by simp) hfirst (.cons hsecond hrest)

namespace Node

/-- An elementary script compiles, and to the expected number of leaves. -/
theorem exists_compile_hasLeaves (ids : Options) {n : Node} (helementary : n.Elementary) :
    ∃ e, n.compile ids = .ok e ∧ e.HasLeaves n.leafCount := by
  induction helementary with
  | boolean value => exact ⟨.boolean value, rfl, rfl⟩
  | number value => exact ⟨.number value, rfl, rfl⟩
  | reference name => exact ⟨.identifier (ids.sanitize name), rfl, rfl⟩
  | operation op _ ih =>
      obtain ⟨compiled, hcompiled, hcounts⟩ := exists_compileAll_of_forall ih
      refine ⟨op.join compiled, compile_operation_of_compileAll op hcompiled, ?_⟩
      rw [leafCount, leafCounts_eq_map]
      exact hasLeaves_join op hcounts

/-- An elementary script compiles to an expression that is no larger than the square of
the script, as long as no equality with three or more operands stands within the first
operand of another; each further such nesting raises the power by one. In any case the
expression is smaller than two to the power of the script's size. -/
theorem size_compile_le_pow (ids : Options) (n : Node) (helementary : n.Elementary) :
    ∃ e, n.compile ids = .ok e ∧ e.size ≤ n.size ^ max 2 (n.copyDepth + 1) ∧
      e.size < 2 ^ n.size := by
  obtain ⟨e, hcompile, hleaves⟩ := exists_compile_hasLeaves ids helementary
  refine ⟨e, hcompile, ?_, ?_⟩
  · have hpow := n.two_mul_leafCount_le_pow (Nat.le_max_left 1 n.copyDepth)
      (Nat.le_max_right 1 n.copyDepth)
    rw [show max 2 (n.copyDepth + 1) = max 1 n.copyDepth + 1 by omega]
    rw [Expr.HasLeaves] at hleaves
    omega
  · have hpow := n.two_mul_leafCount_le_two_pow
    rw [Expr.HasLeaves] at hleaves
    omega

/-! Nested equalities. -/

/-- Equalities with three operands, each in the first operand of the next one. -/
def nestedEquality : Nat → Node
  | 0 => reference "x"
  | depth + 1 => operation .equal [nestedEquality depth, reference "x", reference "x"]

theorem nestedEquality_elementary (depth : Nat) : (nestedEquality depth).Elementary := by
  induction depth with
  | zero => exact .reference _
  | succ depth ih =>
      refine .operation .equal fun n hn => ?_
      simp only [List.mem_cons, List.not_mem_nil, or_false] at hn
      rcases hn with rfl | rfl | rfl
      · exact ih
      · exact .reference _
      · exact .reference _

theorem size_nestedEquality (depth : Nat) : (nestedEquality depth).size = 3 * depth + 1 := by
  induction depth with
  | zero => rfl
  | succ depth ih =>
      simp only [nestedEquality, size, sizeOfAll, ih]
      omega

theorem leafCount_nestedEquality (depth : Nat) :
    (nestedEquality depth).leafCount + 2 = 3 * 2 ^ depth := by
  induction depth with
  | zero => rfl
  | succ depth ih =>
      simp only [nestedEquality, leafCount, leafCounts, Operation.leafCount,
        List.isEmpty_cons, Bool.false_eq_true, if_false, List.length_cons, List.length_nil,
        List.sum_cons, List.sum_nil]
      rw [pow_succ]
      omega

/-- The expression of nested equalities doubles with each of them, while the script
grows by three nodes. -/
theorem exists_compile_nestedEquality (ids : Options) (depth : Nat) :
    ∃ e, (nestedEquality depth).compile ids = .ok e ∧ e.size + 5 = 6 * 2 ^ depth := by
  obtain ⟨e, hcompile, hleaves⟩ :=
    exists_compile_hasLeaves ids (nestedEquality_elementary depth)
  have hcount := leafCount_nestedEquality depth
  rw [Expr.HasLeaves] at hleaves
  exact ⟨e, hcompile, by omega⟩

theorem size_compile_le_pow_nestedEquality :
    (nestedEquality 6).Elementary ∧
      ∃ e, (nestedEquality 6).compile .standard = .ok e ∧ e.size ≤ 19 ^ 7 ∧
        e.size < 2 ^ 19 := by
  have helementary := nestedEquality_elementary 6
  refine ⟨helementary, ?_⟩
  exact size_compile_le_pow .standard (nestedEquality 6) helementary

/-- Six nested equalities have nineteen nodes and compile to an expression of more than
nineteen squared. -/
theorem compile_exceeds_square :
    (nestedEquality 6).Elementary ∧
      ∃ e, (nestedEquality 6).compile .standard = .ok e ∧
        (nestedEquality 6).size ^ 2 < e.size := by
  obtain ⟨e, hcompile, hsize⟩ := exists_compile_nestedEquality .standard 6
  refine ⟨nestedEquality_elementary 6, e, hcompile, ?_⟩
  rw [size_nestedEquality]
  omega

end Node

end ScriptTree
