import ScriptTree.Proofs.Compile.Chain

/-!
Compilation through pairs. An equality with three or more operands is compiled as a
conjunction of equalities with two, which are made for the purpose and compiled in
turn, and an operator is looked up by the tag of its operation. The recursion ends and
gives what joining the compiled operands gives.
-/

namespace ScriptTree

open Identifier (Options)
open Js (Expr)

def identityOfTag (tag : ByteString) : Except CompileError Expr :=
  if tag = Text.toBytes Operation.and.tag then .ok (.boolean true)
  else if tag = Text.toBytes Operation.or.tag then .ok (.boolean false)
  else if tag = Text.toBytes Operation.sum.tag then .ok (.number .zero)
  else .error (.unknownOperator tag)

namespace Node

def pairsWith (first : Node) (others : List Node) : List Node :=
  others.map fun other => operation .equal [first, other]

/-- Induction over scripts in the way they are compiled: the statement about an equality with
three or more operands may be derived from the one about the conjunction of pairs. -/
theorem inductionByPairs {motive : Node → Prop}
    (missing : ∀ expected, motive (missing expected))
    (boolean : ∀ value, motive (boolean value))
    (number : ∀ value, motive (number value))
    (reference : ∀ name, motive (reference name))
    (joined : ∀ op operands, op ≠ .equal → (∀ n ∈ operands, motive n) →
      motive (operation op operands))
    (lone : ∀ operands, operands.length ≤ 1 → motive (operation .equal operands))
    (pair : ∀ left right, motive left → motive right →
      motive (operation .equal [left, right]))
    (many : ∀ first second third rest,
      motive (operation .and (pairsWith first (second :: third :: rest))) →
      motive (operation .equal (first :: second :: third :: rest)))
    (function : ∀ name parameters body, motive body →
      motive (function name parameters body))
    (unrecognized : ∀ tag raw, motive (unrecognized tag raw)) (n : Node) : motive n := by
  induction n with
  | missing expected => exact missing expected
  | boolean value => exact boolean value
  | number value => exact number value
  | reference name => exact reference name
  | function name parameters body ih => exact function name parameters body ih
  | unrecognized tag raw => exact unrecognized tag raw
  | operation op operands ih =>
      by_cases hop : op = .equal
      · subst hop
        match operands with
        | [] => exact lone [] (by simp)
        | [n] => exact lone [n] (by simp)
        | [left, right] => exact pair left right (ih left (by simp)) (ih right (by simp))
        | first :: second :: third :: rest =>
            apply many
            apply joined _ _ (by simp)
            intro m hm
            obtain ⟨other, hother, rfl⟩ := List.mem_map.mp hm
            exact pair first other (ih first (by simp)) (ih other (List.mem_cons_of_mem _ hother))
      · exact joined op operands hop ih

/-- A measure that is one more for a pair than for its operands is at most one more for pairs. -/
theorem pairsWith_le {measure : Node → Nat} {measureOfAll : List Node → Nat}
    (hnil : measureOfAll [] = 0)
    (hcons : ∀ n rest, measureOfAll (n :: rest) = max (measure n) (measureOfAll rest))
    (hpair : ∀ left right,
      measure (operation .equal [left, right]) = max (measure left) (measure right) + 1)
    (first : Node) (others : List Node) :
    measureOfAll (pairsWith first others) ≤ measureOfAll (first :: others) + 1 := by
  induction others with
  | nil => simp [pairsWith, hnil]
  | cons other rest ih =>
      rw [pairsWith, List.map_cons, ← pairsWith]
      simp only [hcons, hpair] at ih ⊢
      omega

mutual

/-- Nesting, where an equality with many operands counts for the conjunction of pairs
that it turns into. -/
def height : Node → Nat
  | operation op operands =>
    heightOfAll operands + (if op = .equal ∧ 3 ≤ operands.length then 3 else 1)
  | function _ _ body => height body + 1
  | missing _ | boolean _ | number _ | reference _ | unrecognized _ _ => 0

def heightOfAll : List Node → Nat
  | [] => 0
  | n :: rest => max (height n) (heightOfAll rest)

end

theorem heightOfAll_lt (op : Operation) (operands : List Node) :
    heightOfAll operands < (operation op operands).height := by
  rw [height]
  split <;> omega

theorem height_pair (left right : Node) :
    (operation .equal [left, right]).height = max left.height right.height + 1 := by
  simp [height, heightOfAll]

/-- The conjunction of pairs counts for less than the equality it stands for. -/
theorem height_pairsWith_lt {first : Node} {others : List Node}
    (hmany : 2 ≤ others.length) :
    (operation .and (pairsWith first others)).height <
      (operation .equal (first :: others)).height := by
  have hpairs := pairsWith_le heightOfAll.eq_1 heightOfAll.eq_2 height_pair first others
  have hand : (operation .and (pairsWith first others)).height =
      heightOfAll (pairsWith first others) + 1 := by simp [height]
  have hequal : (operation .equal (first :: others)).height =
      heightOfAll (first :: others) + 3 := by simp [height, hmany]
  omega

mutual

/-- Compilation step by step. -/
def compileByPairs (ids : Options) : Node → Except CompileError Expr
  | missing _ => .error (.unknownNode [])
  | boolean value => .ok (.boolean value)
  | number value => .ok (.number value)
  | reference name => .ok (.identifier (ids.sanitize name))
  | operation .equal [] | operation .equal [_] => .ok (.boolean true)
  | operation .equal [left, right] => do
    let l ← compileByPairs ids left
    let r ← compileByPairs ids right
    return .binary .equal l r
  | operation .equal (first :: second :: third :: rest) =>
    compileByPairs ids (operation .and (pairsWith first (second :: third :: rest)))
  | operation op [] => identityOfTag op.tag
  | operation _ [n] => compileByPairs ids n
  | operation op (first :: second :: rest) => do
    let operator ← operatorOfTag op.tag
    foldByPairs ids operator first (second :: rest)
  | function name parameters body => do
    let compiled ← compileByPairs ids body
    return .named (ids.sanitize name) (parameters.map (fun p => ids.sanitize p.name)) [compiled]
  | unrecognized tag _ => .error (.unknownNode tag)
termination_by n => (n.height, 0)
decreasing_by
  · exact .left _ _ (by rw [height_pair]; omega)
  · exact .left _ _ (by rw [height_pair]; omega)
  · exact .left _ _ (height_pairsWith_lt (by simp))
  · have hlt := heightOfAll_lt ‹Operation› [n]
    rw [heightOfAll] at hlt
    exact .left _ _ (by omega)
  · exact .left _ _ (heightOfAll_lt op (first :: second :: rest))
  · exact .left _ _ (by rw [height]; omega)

def foldByPairs (ids : Options) (op : Js.Operator) (next : Node) :
    List Node → Except CompileError Expr
  | [] => compileByPairs ids next
  | second :: rest => do
    let left ← compileByPairs ids next
    let right ← foldByPairs ids op second rest
    return .binary op left right
termination_by rest => (heightOfAll (next :: rest), rest.length + 1)
decreasing_by
  · exact .right' _ (by rw [heightOfAll]; omega) (by simp)
  · exact .right' _ (by rw [heightOfAll]; omega) (by simp)
  · exact .right' _ (by rw [heightOfAll.eq_2 next]; omega) (by simp)

end

/-! What the steps give. -/

/-- The operators and the values without operands belong to the same operations. -/
theorem join_eq_chainOr_ofTag {op : Operation} (hop : op ≠ .equal) :
    ∃ identity operator, identityOfTag op.tag = .ok identity ∧
      operatorOfTag op.tag = .ok operator ∧ op.join = chainOr identity operator := by
  have hor : Text.toBytes Operation.or.tag ≠ Text.toBytes Operation.and.tag := by decide
  have hsumAnd : Text.toBytes Operation.sum.tag ≠ Text.toBytes Operation.and.tag := by
    decide
  have hsumOr : Text.toBytes Operation.sum.tag ≠ Text.toBytes Operation.or.tag := by
    decide
  cases op with
  | and =>
      refine ⟨.boolean true, .and, ?_, ?_, rfl⟩
      · rw [identityOfTag, if_pos rfl]
      · rw [operatorOfTag, if_pos rfl]
  | or =>
      refine ⟨.boolean false, .or, ?_, ?_, rfl⟩
      · rw [identityOfTag, if_neg hor, if_pos rfl]
      · rw [operatorOfTag, if_neg hor, if_pos rfl]
  | sum =>
      refine ⟨.number .zero, .add, ?_, ?_, rfl⟩
      · rw [identityOfTag, if_neg hsumAnd, if_neg hsumOr, if_pos rfl]
      · rw [operatorOfTag, if_neg hsumAnd, if_neg hsumOr, if_pos rfl]
  | equal => contradiction

theorem foldByPairs_eq {ids : Options} (op : Js.Operator) (identity : Expr)
    {next : Node} {rest : List Node}
    (hoperands : ∀ n ∈ next :: rest, n.compileByPairs ids = n.compile ids) :
    foldByPairs ids op next rest =
      (compileAll ids (next :: rest)).map (chainOr identity op) := by
  induction rest generalizing next with
  | nil =>
      rw [foldByPairs, hoperands next (by simp), compileAll, compileAll]
      cases next.compile ids <;> rfl
  | cons second rest ih =>
      rw [foldByPairs, hoperands next (by simp),
        ih fun n hn => hoperands n (List.mem_cons_of_mem _ hn),
        compileAll_cons ids next, compileAll_cons ids second]
      cases next.compile ids with
      | error cause => rfl
      | ok left =>
          cases second.compile ids with
          | error cause => rfl
          | ok right => cases compileAll ids rest <;> rfl

theorem compile_pair (ids : Options) (left right : Node) :
    (operation .equal [left, right]).compile ids = do
      let l ← left.compile ids
      let r ← right.compile ids
      return .binary .equal l r := by
  rw [compile_operation, if_neg (by simp), compileAll, compileAll, compileAll]
  cases left.compile ids with
  | error cause => rfl
  | ok l => cases right.compile ids <;> rfl

theorem compileAll_pairsWith_of_ok {ids : Options} {first : Node} {e : Expr}
    (hfirst : first.compile ids = .ok e) (others : List Node) :
    compileAll ids (pairsWith first others) =
      (compileAll ids others).map (List.map (.binary .equal e)) := by
  induction others with
  | nil => rfl
  | cons other rest ih =>
      rw [pairsWith, List.map_cons, ← pairsWith, compileAll, compile_pair, hfirst, ih,
        compileAll]
      cases other.compile ids with
      | error cause => rfl
      | ok o => cases compileAll ids rest <;> rfl

/-- The pairs compile to the comparisons; where the first operand fails, the first pair
fails with it. -/
theorem map_compileAll_pairsWith {ids : Options} (first second : Node)
    (rest : List Node) :
    (compileAll ids (pairsWith first (second :: rest))).map Operation.and.join =
      (compileAll ids (first :: second :: rest)).map Operation.equal.join := by
  cases hfirst : first.compile ids with
  | error cause =>
      rw [pairsWith, List.map_cons, compileAll, compile_pair, compileAll, hfirst]
      rfl
  | ok e =>
      rw [compileAll_pairsWith_of_ok hfirst, compileAll_cons ids first, hfirst]
      cases compileAll ids (second :: rest) <;> rfl

theorem compileByPairs_operation {ids : Options} {op : Operation} (hop : op ≠ .equal)
    {operands : List Node}
    (hoperands : ∀ n ∈ operands, n.compileByPairs ids = n.compile ids) :
    (operation op operands).compileByPairs ids =
      (compileAll ids operands).map op.join := by
  obtain ⟨identity, operator, hidentity, hoperator, hjoin⟩ := join_eq_chainOr_ofTag hop
  rw [hjoin]
  cases operands with
  | nil =>
      rw [compileByPairs, hidentity]
      · rfl
      · exact hop
  | cons first others =>
      cases others with
      | nil =>
          rw [compileByPairs, hoperands first (by simp), compileAll, compileAll]
          · cases first.compile ids <;> rfl
          · exact hop
      | cons second rest =>
          rw [compileByPairs, hoperator, ← foldByPairs_eq operator identity hoperands]
          · rfl
          · exact fun hequal => absurd hequal hop
          · exact fun _ _ hequal => absurd hequal hop

theorem compileByPairs_equal {ids : Options} {operands : List Node}
    (hoperands : ∀ n ∈ operands, n.compileByPairs ids = n.compile ids) :
    (operation .equal operands).compileByPairs ids =
      (operation .equal operands).compile ids := by
  have hpair : ∀ left ∈ operands, ∀ right ∈ operands,
      (operation .equal [left, right]).compileByPairs ids =
        (operation .equal [left, right]).compile ids := by
    intro left hleft right hright
    rw [compileByPairs, compile_pair, hoperands left hleft, hoperands right hright]
  cases operands with
  | nil => rw [compileByPairs]; rfl
  | cons first others =>
      cases others with
      | nil => rw [compileByPairs]; rfl
      | cons second rest =>
          cases rest with
          | nil => exact hpair first (by simp) second (by simp)
          | cons third rest =>
              have hpairs : ∀ m ∈ pairsWith first (second :: third :: rest),
                  m.compileByPairs ids = m.compile ids := by
                intro m hm
                obtain ⟨other, hother, rfl⟩ := List.mem_map.mp hm
                exact hpair first (by simp) other (List.mem_cons_of_mem _ hother)
              rw [compileByPairs, compileByPairs_operation (by simp) hpairs,
                map_compileAll_pairsWith, compile_operation, if_neg (by simp)]

/-- Compilation step by step ends and gives the compiled form, or the same error. -/
theorem compileByPairs_eq_compile (ids : Options) (n : Node) :
    n.compileByPairs ids = n.compile ids := by
  induction n with
  | missing expected => rw [compileByPairs, compile]
  | boolean value => rw [compileByPairs, compile]
  | number value => rw [compileByPairs, compile]
  | reference name => rw [compileByPairs, compile]
  | unrecognized tag raw => rw [compileByPairs, compile]
  | function name parameters body ih => rw [compileByPairs, compile, ih]
  | operation op operands ih =>
      by_cases hop : op = .equal
      · subst hop
        exact compileByPairs_equal ih
      · rw [compileByPairs_operation hop ih, compile_operation, if_neg (by simp [hop])]

end Node

end ScriptTree
