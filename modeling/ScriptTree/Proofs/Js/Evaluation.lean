import ScriptTree.Js.Expr
import ScriptTree.Proofs.Script.Meaning

/-!
Values of expressions of the target language. The logical operators return one of
their operands and leave the other unread; a sum and a comparison turn booleans into
numbers first. A name without a binding stops the evaluation.
-/

namespace ScriptTree

namespace Js

inductive Value where
  | primitive (value : Literal)
  /-- A function, made anew at each evaluation. -/
  | function
deriving DecidableEq, Inhabited

inductive Stop where
  | unbound (name : ByteString)
  /-- A sum with a function in it is a text, and texts are left out here. -/
  | concatenation
  | malformed
deriving DecidableEq, Inhabited

namespace Value

def truthy : Value → Bool
  | primitive v => v.truthy
  | function => true

/-- A function differs from every other value, also from other functions. -/
def looselyEquals : Value → Value → Bool
  | primitive a, primitive b => a.looselyEquals b
  | function, _ | _, function => false

def plus (add : Number → Number → Number) : Value → Value → Except Stop Value
  | primitive a, primitive b => .ok (primitive (.number (add a.toNumber b.toNumber)))
  | function, _ | _, function => .error .concatenation

end Value

namespace Expr

/-- The value of an expression where names have the values of `scope`, with `add` for
the addition of numbers. -/
def evaluate (add : Number → Number → Number) (scope : ByteString → Option Literal) :
    Expr → Except Stop Value
  | absent => .error .malformed
  | boolean value => .ok (.primitive (.boolean value))
  | number value => .ok (.primitive (.number value))
  | identifier name =>
    match scope name with
    | some v => .ok (.primitive v)
    | none => .error (.unbound name)
  | binary .and left right => do
    let v ← evaluate add scope left
    if v.truthy then evaluate add scope right else return v
  | binary .or left right => do
    let v ← evaluate add scope left
    if v.truthy then return v else evaluate add scope right
  | binary .equal left right => do
    let v ← evaluate add scope left
    let w ← evaluate add scope right
    return .primitive (.boolean (v.looselyEquals w))
  | binary .add left right => do
    let v ← evaluate add scope left
    let w ← evaluate add scope right
    v.plus add w
  | binary (.other _) _ _ => .error .malformed
  | function _ _ _ | bodiless _ => .ok .function

/-- The expression has a boolean or a number for its value. -/
def Evaluates (add : Number → Number → Number)
    (scope : ByteString → Option Literal) (e : Expr) (v : Literal) : Prop :=
  e.evaluate add scope = .ok (.primitive v)

variable {add : Number → Number → Number} {scope : ByteString → Option Literal}

theorem evaluate_and (left right : Expr) :
    (binary .and left right).evaluate add scope = (do
      let v ← left.evaluate add scope
      if v.truthy then right.evaluate add scope else return v) := rfl

theorem evaluate_or (left right : Expr) :
    (binary .or left right).evaluate add scope = (do
      let v ← left.evaluate add scope
      if v.truthy then return v else right.evaluate add scope) := rfl

theorem evaluate_equal (left right : Expr) :
    (binary .equal left right).evaluate add scope = (do
      let v ← left.evaluate add scope
      let w ← right.evaluate add scope
      return .primitive (.boolean (v.looselyEquals w))) := rfl

theorem evaluate_add (left right : Expr) :
    (binary .add left right).evaluate add scope = (do
      let v ← left.evaluate add scope
      let w ← right.evaluate add scope
      v.plus add w) := rfl

theorem evaluates_boolean (value : Bool) :
    (boolean value).Evaluates add scope (.boolean value) := rfl

theorem evaluates_number (value : Number) :
    (number value).Evaluates add scope (.number value) := rfl

theorem evaluates_identifier {name : ByteString} {v : Literal}
    (hname : scope name = some v) :
    (identifier name).Evaluates add scope v := by
  simp [Evaluates, evaluate, hname]

end Expr

/-- The logical operator that goes on as long as its operands are as true as
`identity`. -/
def Operator.logical (identity : Bool) : Operator := if identity then .and else .or

namespace Expr

variable {add : Number → Number → Number} {scope : ByteString → Option Literal}

theorem evaluate_logical_of_eq {identity : Bool} {left right : Expr} {v : Literal}
    (hleft : left.Evaluates add scope v) (htruth : v.truthy = identity) :
    (binary (.logical identity) left right).evaluate add scope =
      right.evaluate add scope := by
  have hvalue : left.evaluate add scope = .ok (.primitive v) := hleft
  cases identity <;>
    simp [Operator.logical, evaluate_and, evaluate_or, hvalue, Value.truthy, htruth, bind,
      Except.bind]

theorem evaluate_logical_of_ne {identity : Bool} {left right : Expr} {v : Literal}
    (hleft : left.Evaluates add scope v) (htruth : v.truthy = !identity) :
    (binary (.logical identity) left right).Evaluates add scope v := by
  have hvalue : left.evaluate add scope = .ok (.primitive v) := hleft
  cases identity <;>
    simp [Evaluates, Operator.logical, evaluate_and, evaluate_or, hvalue, Value.truthy, htruth,
      bind, Except.bind, pure, Except.pure]

theorem evaluates_equal {left right : Expr} {v w : Literal}
    (hleft : left.Evaluates add scope v) (hright : right.Evaluates add scope w) :
    (binary .equal left right).Evaluates add scope (.boolean (v.looselyEquals w)) := by
  have hv : left.evaluate add scope = .ok (.primitive v) := hleft
  have hw : right.evaluate add scope = .ok (.primitive w) := hright
  simp [Evaluates, evaluate_equal, hv, hw, Value.looselyEquals, bind, Except.bind, pure,
    Except.pure]

theorem evaluates_add {left right : Expr} {v w : Literal}
    (hleft : left.Evaluates add scope v) (hright : right.Evaluates add scope w) :
    (binary .add left right).Evaluates add scope
      (.number (add v.toNumber w.toNumber)) := by
  have hv : left.evaluate add scope = .ok (.primitive v) := hleft
  have hw : right.evaluate add scope = .ok (.primitive w) := hright
  simp [Evaluates, evaluate_add, hv, hw, Value.plus, bind, Except.bind]

end Expr

end Js

end ScriptTree
