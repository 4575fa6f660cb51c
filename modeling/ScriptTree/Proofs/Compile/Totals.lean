import ScriptTree.Proofs.Compile.Meaning
import ScriptTree.Proofs.Number.Addition

/-!
Totals of numbers. Folding adds the operands of a sum from the left and starts at zero;
the expression of the sum adds them from the right and starts at the last operand. The
two totals may be rounded differently, and a sum of nothing but zeros below zero loses
its sign in folding.
-/

namespace ScriptTree.Node

open Identifier (Options)
open Js.Expr (Evaluates)

/-- Scripts of numbers and sums alone. -/
inductive Additive : Node → Prop
  | number (value : Number) : Additive (.number value)
  | sum {operands : List Node} (hoperands : ∀ n ∈ operands, Additive n) :
      Additive (.operation .sum operands)

mutual

/-- The total of an additive script in the order of folding. -/
def leftTotal : Node → Number
  | number value => value
  | operation _ operands => leftTotalOnto .zero operands
  | _ => .zero

def leftTotalOnto (total : Number) : List Node → Number
  | [] => total
  | n :: rest => leftTotalOnto (total + leftTotal n) rest

end

mutual

/-- The total of an additive script in the order of its expression. -/
def rightTotal : Node → Number
  | number value => value
  | operation _ operands => rightTotalOf operands
  | _ => .zero

def rightTotalOf : List Node → Number
  | [] => .zero
  | [n] => rightTotal n
  | n :: rest => rightTotal n + rightTotalOf rest

end

theorem rightTotalOf_cons_cons (n next : Node) (rest : List Node) :
    rightTotalOf (n :: next :: rest) = n.rightTotal + rightTotalOf (next :: rest) := by
  rw [rightTotalOf]
  simp

/-- Additive scripts whose sums have at most two operands. -/
inductive Narrow : Node → Prop
  | number (value : Number) : Narrow (.number value)
  | sum {operands : List Node} (hlength : operands.length ≤ 2)
      (hoperands : ∀ n ∈ operands, Narrow n) : Narrow (.operation .sum operands)

/-- Additive scripts where every number is the zero below zero and no sum is empty. -/
inductive BelowZero : Node → Prop
  | number : BelowZero (.number .negativeZero)
  | sum {operands : List Node} (hne : operands ≠ [])
      (hoperands : ∀ n ∈ operands, BelowZero n) : BelowZero (.operation .sum operands)

/-! Folding gives the left total. -/

theorem sumFrom_map_number (path : Path) (total : Number) (i : Nat)
    (operands : List Node) :
    sumFrom path total i (operands.map (fun n => .number n.leftTotal)) =
      .done (.number (leftTotalOnto total operands)) := by
  induction operands generalizing total i with
  | nil => rfl
  | cons n rest ih =>
      rw [List.map_cons, sumFrom, ih, leftTotalOnto]

theorem operandsFrom_of_done {operands : List Node}
    (hoperands : ∀ n ∈ operands, ∀ path,
      n.evaluate path = .done (.number n.leftTotal)) (path : Path) (i : Nat) :
    operandsFrom path i operands =
      .done (operands.map (fun n => .number n.leftTotal)) := by
  induction operands generalizing i with
  | nil => rfl
  | cons n rest ih =>
      have hfirst := hoperands n (by simp) (path ++ [.child i])
      have hrest := ih (fun m hm => hoperands m (by simp [hm])) (i + 1)
      simp [operandsFrom, hfirst, hrest, Evaluation.done]

theorem evaluate_of_additive {n : Node} (hadditive : n.Additive) (path : Path) :
    n.evaluate path = .done (.number n.leftTotal) := by
  induction hadditive generalizing path with
  | number value => rfl
  | sum _ ih =>
      rw [evaluate, operandsFrom_of_done ih]
      simp only [Evaluation.done]
      rw [sumFrom_map_number]
      rfl

theorem reduce_of_additive {n : Node} (hadditive : n.Additive) :
    n.reduce = .reduced (.number n.leftTotal) := by
  have hfunction : n.isFunction = false := by cases hadditive <;> rfl
  simp [reduce, hfunction, evaluate_of_additive hadditive, Evaluation.done]

/-! The expression of an additive script has the right total for its value. -/

theorem totalOf_meanings {bound : ByteString → Literal} {operands : List Node}
    (hoperands : ∀ n ∈ operands,
      n.meaning Number.add bound = .number n.rightTotal) :
    totalOf Number.add (meanings Number.add bound operands) =
      .number (rightTotalOf operands) := by
  induction operands with
  | nil => rfl
  | cons n rest ih =>
      have hfirst := hoperands n (by simp)
      have hrest := ih (fun m hm => hoperands m (by simp [hm]))
      cases rest with
      | nil => simpa [meanings, totalOf, rightTotalOf] using hfirst
      | cons next rest =>
          rw [meanings, meanings, totalOf, ← meanings, hrest, hfirst,
            rightTotalOf_cons_cons]
          · rfl
          · simp

theorem meaning_of_additive {n : Node} (hadditive : n.Additive)
    (bound : ByteString → Literal) :
    n.meaning Number.add bound = .number n.rightTotal := by
  induction hadditive with
  | number value => rfl
  | sum _ ih =>
      rw [meaning, Operation.valueOf, totalOf_meanings ih]
      rfl

theorem preserved_of_additive {n : Node} (hadditive : n.Additive)
    (scope : ByteString → Option Literal) (bound : ByteString → Literal)
    (ids : Options) : n.Preserved Number.add scope bound ids := by
  induction hadditive with
  | number value => exact ⟨.number value, rfl, rfl⟩
  | sum _ ih => exact preserved_operation .sum ih

/-! The sign of a zero total. -/

theorem leftTotalOnto_ne_negativeZero {total : Number} (htotal : total ≠ .negativeZero)
    (operands : List Node) : leftTotalOnto total operands ≠ .negativeZero := by
  induction operands generalizing total with
  | nil => exact htotal
  | cons n rest ih =>
      rw [leftTotalOnto]
      apply ih
      intro hsum
      exact htotal (Number.add_eq_negativeZero_iff.mp hsum).1

theorem rightTotalOf_eq_negativeZero_iff {operands : List Node} :
    rightTotalOf operands = .negativeZero ↔
      operands ≠ [] ∧ ∀ n ∈ operands, n.rightTotal = .negativeZero := by
  induction operands with
  | nil =>
      have hzero : Number.zero ≠ .negativeZero := by decide
      simp [rightTotalOf, hzero]
  | cons n rest ih =>
      cases rest with
      | nil => simp [rightTotalOf]
      | cons next rest =>
          rw [rightTotalOf_cons_cons, Number.add_eq_negativeZero_iff, ih]
          simp

theorem rightTotal_eq_negativeZero_iff {n : Node} (hadditive : n.Additive) :
    n.rightTotal = .negativeZero ↔ n.BelowZero := by
  induction hadditive with
  | number value =>
      refine ⟨fun hvalue => ?_, fun hbelow => by cases hbelow; rfl⟩
      rw [rightTotal] at hvalue
      rw [hvalue]
      exact .number
  | sum _ ih =>
      rw [rightTotal, rightTotalOf_eq_negativeZero_iff]
      constructor
      · rintro ⟨hne, hall⟩
        exact .sum hne (fun n hn => (ih n hn).mp (hall n hn))
      · intro hbelow
        cases hbelow with
        | sum hne hoperands =>
            exact ⟨hne, fun n hn => (ih n hn).mpr (hoperands n hn)⟩

/-! Where the two totals agree. -/

theorem similar_of_narrow {n : Node} (hnarrow : n.Narrow) :
    n.leftTotal.Similar n.rightTotal := by
  induction hnarrow with
  | number value => exact .refl value
  | @sum operands hlength _ ih =>
      rw [leftTotal, rightTotal]
      match operands, hlength, ih with
      | [], _, _ => exact .refl _
      | [n], _, ih =>
          rw [leftTotalOnto, leftTotalOnto, rightTotalOf]
          exact (Number.zero_add_similar _).trans (ih n (by simp))
      | [n, m], _, ih =>
          rw [leftTotalOnto, leftTotalOnto, leftTotalOnto, rightTotalOf_cons_cons,
            rightTotalOf]
          have hfirst := (Number.zero_add_similar _).trans (ih n (by simp))
          exact hfirst.add (ih m (by simp))

theorem same_iff_of_additive {n : Node} (hadditive : n.Additive) :
    n.leftTotal.Same n.rightTotal ↔
      n.leftTotal.Similar n.rightTotal ∧
        (n.BelowZero → n = .number .negativeZero) := by
  cases hadditive with
  | number value =>
      have hbelow : (number value).BelowZero → number value = .number .negativeZero := by
        intro hbelow
        cases hbelow
        rfl
      exact ⟨fun _ => ⟨.refl value, hbelow⟩, fun _ => .inl rfl⟩
  | @sum operands hoperands =>
      have hleft : (operation .sum operands).leftTotal ≠ .negativeZero :=
        leftTotalOnto_ne_negativeZero (by decide) operands
      have hright := rightTotal_eq_negativeZero_iff (.sum hoperands)
      constructor
      · intro hsame
        have hsimilar : Number.Similar _ _ := .inl hsame
        refine ⟨hsimilar, fun hbelow => ?_⟩
        exact absurd (hright.mpr hbelow) ((hsimilar.same_iff hleft).mp hsame)
      · rintro ⟨hsimilar, hbelow⟩
        rw [hsimilar.same_iff hleft, ne_eq, hright]
        intro hzeros
        cases hbelow hzeros

/-- An additive script folds to its left total and compiles to an expression whose value
is its right total. These are the same number exactly if they are equal up to the sign
of zero and the script is not a sum of nothing but zeros below zero; as long as no sum
has three operands, only the sign of zero can differ. -/
theorem reduce_same_as_compile_iff (ids : Options) (n : Node)
    (hadditive : n.Additive) :
    n.reduce = .reduced (.number n.leftTotal) ∧
      (∃ e, n.compile ids = .ok e ∧
        e.evaluate Number.add (fun _ => none) =
          .ok (.primitive (.number n.rightTotal))) ∧
      (n.leftTotal.Same n.rightTotal ↔
        n.leftTotal.Similar n.rightTotal ∧
          (n.BelowZero → n = .number .negativeZero)) ∧
      (n.Narrow → n.leftTotal.Similar n.rightTotal) := by
  refine ⟨reduce_of_additive hadditive, ?_, same_iff_of_additive hadditive,
    similar_of_narrow⟩
  obtain ⟨e, hcompile, hvalue⟩ :=
    preserved_of_additive hadditive (fun _ => none) (fun _ => default) ids
  rw [meaning_of_additive hadditive] at hvalue
  exact ⟨e, hcompile, hvalue⟩

/-- The lone operand of this sum loses its sign in folding. -/
def loneNegativeZero : Node := operation .sum [number .negativeZero]

theorem reduce_same_as_compile_iff_loneNegativeZero :
    loneNegativeZero.reduce = .reduced (.number .zero) ∧
      (∃ e, loneNegativeZero.compile .standard = .ok e ∧
        e.evaluate Number.add (fun _ => none) =
          .ok (.primitive (.number .negativeZero))) ∧
      ¬ Number.zero.Same .negativeZero := by
  have hadditive : loneNegativeZero.Additive := by grind [Additive, loneNegativeZero]
  have hbelow : loneNegativeZero.BelowZero := by grind [BelowZero, loneNegativeZero]
  obtain ⟨hreduce, hcompile, hsame, -⟩ :=
    reduce_same_as_compile_iff .standard loneNegativeZero hadditive
  have hleft : loneNegativeZero.leftTotal = .zero := by decide
  have hright : loneNegativeZero.rightTotal = .negativeZero := by decide
  rw [hleft] at hreduce hsame
  rw [hright] at hcompile hsame
  refine ⟨hreduce, hcompile, fun hzeros => ?_⟩
  cases (hsame.mp hzeros).2 hbelow

-- from the left this sum overflows, from the right it does not
example :
    let large := Number.ofDecimal false 1 308
    let n := operation .sum [number large, number large, number (.ofDecimal true 1 308)]
    n.leftTotal = .infinity false ∧ n.rightTotal = large := by
  decide +kernel

end ScriptTree.Node
