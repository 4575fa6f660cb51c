import ScriptTree.Script.Node

/-!
Evaluation of closed scripts to a literal. Free references, functions used as values
and operands of the wrong type are problems, each at a path of the script.
-/

namespace ScriptTree

inductive ValueType where
  | boolean
  | number
deriving DecidableEq, Inhabited

def ValueType.name : ValueType → String
  | boolean => "Boolean"
  | number => "Number"

inductive Literal where
  | boolean (value : Bool)
  | number (value : Number)
deriving DecidableEq, Inhabited

namespace Literal

def type : Literal → ValueType
  | boolean _ => .boolean
  | number _ => .number

def toNode : Literal → Node
  | boolean value => .boolean value
  | number value => .number value

def equals : Literal → Literal → Bool
  | boolean a, boolean b => a == b
  | number x, number y => x.equals y
  | boolean _, number _ | number _, boolean _ => false

end Literal

inductive Problem where
  | missing
  | unbound (name : ByteString)
  | functionValue (name : ByteString)
  | unknown (tag : ByteString)
  | mismatch (expected got : ValueType)
deriving DecidableEq, Inhabited

namespace Problem

def message : Problem → String
  | missing => "missing node"
  | unbound name => "unbound reference " ++ name.quote
  | functionValue name => "function " ++ name.quote ++ " cannot be used as a value"
  | unknown tag => "unknown node type " ++ tag.quote
  | mismatch expected got => "expected " ++ expected.name ++ ", got " ++ got.name

end Problem

structure Finding where
  path : Path
  problem : Problem
deriving DecidableEq, Inhabited

structure Evaluation (α : Type) where
  result : Option α
  findings : List Finding := []
deriving Inhabited

namespace Evaluation

def done (value : α) : Evaluation α := ⟨some value, []⟩

def found (path : Path) (problem : Problem) : Evaluation α := ⟨none, [⟨path, problem⟩]⟩

def after (earlier : List Finding) (e : Evaluation α) : Evaluation α :=
  ⟨e.result, earlier ++ e.findings⟩

end Evaluation

open Evaluation (done found)

def sumFrom (path : Path) (total : Number) : Nat → List Literal → Evaluation Literal
  | _, [] => done (.number total)
  | i, .number x :: rest => sumFrom path (total + x) (i + 1) rest
  | i, .boolean _ :: _ => found (path ++ [.child i]) (.mismatch .number .boolean)

def mismatchFrom? (path : Path) (expected : ValueType) : Nat → List Literal → Option Finding
  | _, [] => none
  | i, v :: rest =>
    if v.type = expected then mismatchFrom? path expected (i + 1) rest
    else some ⟨path ++ [.child i], .mismatch expected v.type⟩

/-- Whether all operands equal the first one; they have to be of its type. -/
def allEqual (path : Path) : List Literal → Evaluation Literal
  | [] => done (.boolean true)
  | first :: others =>
    match mismatchFrom? path first.type 1 others with
    | some finding => ⟨none, [finding]⟩
    | none => done (.boolean (others.all (·.equals first)))

namespace Node

mutual

/-- The value of a script at a path. A sum with an operand that has no value is
zero. -/
def evaluate (path : Path) : Node → Evaluation Literal
  | missing _ => found path .missing
  | boolean value => done (.boolean value)
  | number value => done (.number value)
  | reference name => found path (.unbound name)
  | operation .and operands => decideFrom path true 0 operands
  | operation .or operands => decideFrom path false 0 operands
  | operation .sum operands =>
    let e := operandsFrom path 0 operands
    match e.result with
    | none => ⟨some (.number .zero), e.findings⟩
    | some values => (sumFrom path .zero 0 values).after e.findings
  | operation .equal operands =>
    let e := operandsFrom path 0 operands
    match e.result with
    | none => ⟨none, e.findings⟩
    | some values => (allEqual path values).after e.findings
  | function name _ _ => found path (.functionValue name)
  | unrecognized tag _ => found path (.unknown tag)

/-- The operands from index `i` on, up to the first that differs from `identity`. -/
def decideFrom (path : Path) (identity : Bool) (i : Nat) : List Node → Evaluation Literal
  | [] => done (.boolean identity)
  | n :: rest =>
    let e := evaluate (path ++ [.child i]) n
    match e.result with
    | none => e
    | some (.number _) =>
      (found (path ++ [.child i]) (.mismatch .boolean .number)).after e.findings
    | some (.boolean b) =>
      if b = identity then (decideFrom path identity (i + 1) rest).after e.findings else e

/-- The values of the operands from index `i` on, if all have one. -/
def operandsFrom (path : Path) (i : Nat) : List Node → Evaluation (List Literal)
  | [] => done []
  | n :: rest =>
    let e := evaluate (path ++ [.child i]) n
    match e.result with
    | none => ⟨none, e.findings⟩
    | some v =>
      let others := operandsFrom path (i + 1) rest
      ⟨others.result.map (v :: ·), e.findings ++ others.findings⟩

end

end Node

inductive Reduction where
  | rejected (findings : List Finding)
  | reduced (value : Literal)
  | unreduced
deriving Inhabited

namespace Node

/-- Whether a script is a function, or an empty place meant for one. -/
def isFunction : Node → Bool
  | function _ _ _ | missing (some .function) => true
  | _ => false

/-- Folds a closed script to a literal; functions are left as they are. -/
def reduce (n : Node) : Reduction :=
  if n.isFunction then .unreduced
  else
    let e := n.evaluate []
    if !e.findings.isEmpty then .rejected e.findings
    else
      match e.result with
      | some value => .reduced value
      | none => .unreduced

end Node

end ScriptTree
