import ScriptTree.Identifier
import ScriptTree.Js.Expr
import ScriptTree.Script.Node

/-!
Compilation of scripts to expressions. An operation on many operands becomes a chain
of binary operators that groups to the right; an unknown node anywhere in what is
compiled fails the whole script.
-/

namespace ScriptTree

open Identifier (Options)

inductive CompileError where
  /-- A node whose tag has no compiled form; an empty place has the empty tag. -/
  | unknownNode (tag : ByteString)
  /-- A tag of nodes that no single operator stands for. -/
  | unknownOperator (tag : ByteString)
deriving DecidableEq, Inhabited

namespace CompileError

def tag : CompileError → ByteString
  | unknownNode tag | unknownOperator tag => tag

def message : CompileError → String
  | unknownNode tag => "unknown node type " ++ tag.quote
  | unknownOperator tag => "unknown operator for node type " ++ tag.quote

end CompileError

def operatorOfTag (tag : ByteString) : Except CompileError Js.Operator :=
  if tag = Text.toBytes Operation.and.tag then .ok .and
  else if tag = Text.toBytes Operation.or.tag then .ok .or
  else if tag = Text.toBytes Operation.sum.tag then .ok .add
  else .error (.unknownOperator tag)

/-- Joins expressions with an operator, grouping to the right. -/
def chain (op : Js.Operator) (first : Js.Expr) : List Js.Expr → Js.Expr
  | [] => first
  | next :: rest => .binary op first (chain op next rest)

def chainOr (identity : Js.Expr) (op : Js.Operator) : List Js.Expr → Js.Expr
  | [] => identity
  | first :: rest => chain op first rest

def comparisons : List Js.Expr → Js.Expr
  | [] => .boolean true
  | first :: others =>
    chainOr (.boolean true) .and (others.map (.binary .equal first))

def Operation.join : Operation → List Js.Expr → Js.Expr
  | and, operands => chainOr (.boolean true) .and operands
  | or, operands => chainOr (.boolean false) .or operands
  | sum, operands => chainOr (.number .zero) .add operands
  | equal, operands => comparisons operands

namespace Node

mutual

/-- The expression of a script. The operand of an equality with one operand is not
looked at. -/
def compile (ids : Options) : Node → Except CompileError Js.Expr
  | missing _ => .error (.unknownNode [])
  | boolean value => .ok (.boolean value)
  | number value => .ok (.number value)
  | reference name => .ok (.identifier (ids.sanitize name))
  | operation .equal [_] => .ok (.boolean true)
  | operation op operands => do
    let compiled ← compileAll ids operands
    return op.join compiled
  | function name parameters body => do
    let compiled ← compile ids body
    return .named (ids.sanitize name) (parameters.map (fun p => ids.sanitize p.name)) [compiled]
  | unrecognized tag _ => .error (.unknownNode tag)

def compileAll (ids : Options) : List Node → Except CompileError (List Js.Expr)
  | [] => .ok []
  | n :: rest => do
    let first ← compile ids n
    let others ← compileAll ids rest
    return first :: others

end

end Node

end ScriptTree
