import ScriptTree.Compile
import ScriptTree.Number.Layout

/-!
The steps of a compilation, in the order in which they are taken: one for each node
that is built. They stop at the node that fails.
-/

namespace ScriptTree.Compile

open Identifier (Options)

/-- One step. Names stand as the script has them. -/
inductive Step where
  | boolean (value : Bool)
  | number (value : Number)
  | identifier (name : ByteString)
  | binary (operator : Js.Operator)
  | binding (name : ByteString)
  | returning
  | function (name : ByteString) (arity : Nat)
deriving DecidableEq, Inhabited

namespace Step

def text (ids : Options) : Step → ByteString
  | boolean value => "LiteralBoolean " ++ (if value then "true" else "false")
  | number value => "LiteralNumeric " ++ value.general
  | identifier name => Text.toBytes "Identifier " ++ ids.sanitize name
  | binary op => "Binary " ++ op.symbol
  | binding name => Text.toBytes "Binding " ++ ids.sanitize name
  | returning => "Return"
  | function name arity =>
    Text.toBytes "Function " ++ ids.sanitize name ++ Text.toBytes ("/" ++ Nat.repr arity)

def renamed? : Step → Option ByteString
  | identifier name | binding name => some name
  | boolean _ | number _ | binary _ | returning | function _ _ => none

end Step

structure Trace where
  steps : List Step
  error : Option CompileError := none
deriving DecidableEq, Inhabited

namespace Trace

def empty : Trace := ⟨[], none⟩

def of (steps : List Step) : Trace := ⟨steps, none⟩

def halt (e : CompileError) : Trace := ⟨[], some e⟩

/-- Goes on with a second trace unless the first one ended in an error. -/
def andThen (t u : Trace) : Trace :=
  match t.error with
  | some _ => t
  | none => ⟨t.steps ++ u.steps, u.error⟩

/-- Operands one after the other, then the operators that join them. -/
def join (identity : Step) (op : Js.Operator) : List Trace → Trace
  | [] => of [identity]
  | operands =>
    (operands.foldl andThen empty).andThen
      (of (List.replicate (operands.length - 1) (.binary op)))

/-- The first operand is compiled again for each comparison. -/
def compare : List Trace → Trace
  | [] => of [.boolean true]
  | first :: others =>
    join (.boolean true) .and
      (others.map fun other => (first.andThen other).andThen (of [.binary .equal]))

end Trace

end ScriptTree.Compile

namespace ScriptTree.Node

open Compile

mutual

def trace : Node → Trace
  | missing _ => .halt (.unknownNode [])
  | boolean value => .of [.boolean value]
  | number value => .of [.number value]
  | reference name => .of [.identifier name]
  | operation .and operands => .join (.boolean true) .and (traceAll operands)
  | operation .or operands => .join (.boolean false) .or (traceAll operands)
  | operation .sum operands => .join (.number .zero) .add (traceAll operands)
  | operation .equal operands => .compare (traceAll operands)
  | function name parameters body =>
    ((Trace.of (parameters.map (fun p => .binding p.name))).andThen (trace body)).andThen
      (.of [.binding name, .returning, .function name parameters.length])
  | unrecognized tag _ => .halt (.unknownNode tag)

def traceAll : List Node → List Trace
  | [] => []
  | n :: rest => trace n :: traceAll rest

end

def renamings (n : Node) : List ByteString := n.trace.steps.filterMap Step.renamed?

end ScriptTree.Node
