import ScriptTree.Script.Evaluate
import Mathlib.Data.List.Forall2

/-!
The meaning of scripts without functions. Every operation takes any number of operands:
the logical ones give the operand that decides, a sum adds from the right, and an
equality compares all operands with each other.
-/

namespace ScriptTree

namespace Number

def one : Number := ofNat 1

theorem equals_comm (x y : Number) : x.equals y = y.equals x := by
  unfold equals
  rw [Bool.and_comm (!x.isNaN), Bool.and_comm x.isZero, Bool.beq_comm]

theorem equals_trans {x y z : Number}
    (hxy : x.equals y = true) (hyz : y.equals z = true) : x.equals z = true := by
  simp only [equals, Bool.and_eq_true, Bool.or_eq_true, beq_iff_eq] at hxy hyz ⊢
  obtain ⟨⟨hx, _⟩, hxy⟩ := hxy
  obtain ⟨⟨_, hz⟩, hyz⟩ := hyz
  refine ⟨⟨hx, hz⟩, ?_⟩
  rcases hxy with rfl | ⟨hx, hy⟩
  · exact hyz
  · rcases hyz with rfl | ⟨_, hz⟩
    · exact .inr ⟨hx, hy⟩
    · exact .inr ⟨hx, hz⟩

end Number

namespace Literal

/-- Zeros, `NaN` and `false` count as false. -/
def truthy : Literal → Bool
  | boolean value => value
  | number x => !x.isNaN && !x.isZero

def toNumber : Literal → Number
  | boolean value => if value then .one else .zero
  | number x => x

/-- Equality after both sides have been turned into numbers. -/
def looselyEquals (a b : Literal) : Bool := a.toNumber.equals b.toNumber

theorem looselyEquals_comm (a b : Literal) :
    a.looselyEquals b = b.looselyEquals a := Number.equals_comm _ _

theorem looselyEquals_trans {a b c : Literal}
    (hab : a.looselyEquals b = true) (hbc : b.looselyEquals c = true) :
    a.looselyEquals c = true := Number.equals_trans hab hbc

theorem looselyEquals_of_type_eq {a b : Literal} (htype : a.type = b.type) :
    a.looselyEquals b = a.equals b := by
  cases a with
  | boolean a =>
      cases b with
      | boolean b => cases a <;> cases b <;> decide
      | number _ => cases htype
  | number x =>
      cases b with
      | boolean _ => cases htype
      | number y => rfl

end Literal

/-! The operations on lists of values. -/

/-- The first value whose truth differs from `identity`, or else the last one; without
values `identity` itself. -/
def decided (identity : Bool) (values : List Literal) : Literal :=
  (values.find? (fun v => v.truthy != identity)).getD
    (values.getLastD (.boolean identity))

/-- The total of values added from the right; a single value stands for itself. -/
def totalOf (add : Number → Number → Number) : List Literal → Literal
  | [] => .number .zero
  | [v] => v
  | v :: rest => .number (add v.toNumber (totalOf add rest).toNumber)

/-- Whether any two values at different positions are equal. -/
def pairwiseEqual (values : List Literal) : Bool :=
  decide (∀ i j : Fin values.length, i ≠ j → values[i].looselyEquals values[j] = true)

def Operation.valueOf (add : Number → Number → Number) :
    Operation → List Literal → Literal
  | and, values => decided true values
  | or, values => decided false values
  | sum, values => totalOf add values
  | equal, values => .boolean (pairwiseEqual values)

theorem decided_cons_of_eq {identity : Bool} {v : Literal} {values : List Literal}
    (htruth : v.truthy = identity) (hne : values ≠ []) :
    decided identity (v :: values) = decided identity values := by
  cases values with
  | nil => contradiction
  | cons w rest => simp [decided, htruth]

theorem decided_cons_of_ne {identity : Bool} {v : Literal} {values : List Literal}
    (htruth : v.truthy = !identity) : decided identity (v :: values) = v := by
  cases identity <;> simp [decided, htruth]

theorem decided_map_boolean (bits : List Bool) :
    decided true (bits.map .boolean) = .boolean (bits.all id) := by
  induction bits with
  | nil => rfl
  | cons bit rest ih =>
      cases bit with
      | false => exact decided_cons_of_ne rfl
      | true =>
          cases rest with
          | nil => rfl
          | cons next rest =>
              have htruth : (Literal.boolean true).truthy = true := rfl
              rw [List.map_cons, decided_cons_of_eq htruth (by simp), ih]
              rfl

/-- Comparing all values with the first one compares all of them with each other. -/
theorem pairwiseEqual_cons (first : Literal) (others : List Literal) :
    pairwiseEqual (first :: others) = others.all first.looselyEquals := by
  rw [pairwiseEqual, Bool.eq_iff_iff, decide_eq_true_iff, List.all_eq_true]
  constructor
  · intro hpairs v hv
    obtain ⟨i, hi, rfl⟩ := List.getElem_of_mem hv
    exact hpairs ⟨0, by simp⟩ ⟨i + 1, by simpa using hi⟩ (by simp)
  · intro hfirst i j hne
    have hother : ∀ k : Nat, (hk : k < others.length) →
        first.looselyEquals others[k] = true :=
      fun k hk => hfirst _ (List.getElem_mem hk)
    -- the first value is the bridge between any two others
    obtain ⟨i, hi⟩ := i
    obtain ⟨j, hj⟩ := j
    cases i with
    | zero =>
        cases j with
        | zero => contradiction
        | succ j => exact hother j (by simpa using hj)
    | succ i =>
        have hi : i < others.length := by simpa using hi
        have hback : others[i].looselyEquals first = true := by
          rw [Literal.looselyEquals_comm]
          exact hother i hi
        cases j with
        | zero => exact hback
        | succ j =>
            exact Literal.looselyEquals_trans hback (hother j (by simpa using hj))

namespace Node

/-- Scripts built from literals, references and operations. -/
inductive Elementary : Node → Prop
  | boolean (value : Bool) : Elementary (.boolean value)
  | number (value : Number) : Elementary (.number value)
  | reference (name : ByteString) : Elementary (.reference name)
  | operation (op : Operation) {operands : List Node}
      (hoperands : ∀ n ∈ operands, Elementary n) :
      Elementary (.operation op operands)

mutual

/-- The value of an elementary script where references have the values of `bound`.
Other scripts have no meaning of this kind and get an arbitrary one. -/
def meaning (add : Number → Number → Number) (bound : ByteString → Literal) :
    Node → Literal
  | boolean value => .boolean value
  | number value => .number value
  | reference name => bound name
  | operation op operands => op.valueOf add (meanings add bound operands)
  | missing _ | function _ _ _ | unrecognized _ _ => default

def meanings (add : Number → Number → Number) (bound : ByteString → Literal) :
    List Node → List Literal
  | [] => []
  | n :: rest => meaning add bound n :: meanings add bound rest

end

mutual

def references : Node → List ByteString
  | reference name => [name]
  | operation _ operands => referencesOfAll operands
  | function _ _ body => references body
  | missing _ | boolean _ | number _ | unrecognized _ _ => []

def referencesOfAll : List Node → List ByteString
  | [] => []
  | n :: rest => references n ++ referencesOfAll rest

end

theorem mem_referencesOfAll {operands : List Node} {n : Node} {name : ByteString}
    (hn : n ∈ operands) (hname : name ∈ n.references) :
    name ∈ referencesOfAll operands := by
  induction operands with
  | nil => cases hn
  | cons first rest ih =>
      rw [referencesOfAll, List.mem_append]
      rcases List.mem_cons.mp hn with rfl | hn
      · exact .inl hname
      · exact .inr (ih hn)

end Node

end ScriptTree
