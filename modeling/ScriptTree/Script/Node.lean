import ScriptTree.Number
import ScriptTree.Text.ByteString
import ScriptTree.Text.Quoted

/-!
Scripts: trees of literals, references, operations with any number of operands, and functions. A
place in a tree may be empty, and a node may carry a tag that no kind has. Paths lead into a
script, from the root down.
-/

namespace ScriptTree

inductive Operation where
  | and
  | or
  | sum
  | equal
deriving DecidableEq, Inhabited

inductive Kind where
  | boolean
  | number
  | reference
  | operation (operation : Operation)
  | function
deriving DecidableEq, Inhabited

/-- A parameter of a function. Its type is carried along and not consulted. -/
structure Parameter where
  name : ByteString
  type : ByteString
deriving DecidableEq, Inhabited

namespace Operation

def tag : Operation → String
  | and => "And"
  | or => "Or"
  | sum => "Sum"
  | equal => "Equal"

end Operation

namespace Kind

def tag : Kind → String
  | boolean => "LiteralBoolean"
  | number => "LiteralNumber"
  | reference => "Reference"
  | operation op => op.tag
  | function => "Function"

def all : List Kind :=
  [boolean, number, reference, operation .and, operation .or, operation .sum,
    operation .equal, function]

def ofTag? (text : ByteString) : Option Kind := all.find? (Text.toBytes ·.tag = text)

end Kind

inductive Node where
  /-- An empty place, which may have been meant for a node of some kind. -/
  | missing (expected : Option Kind)
  | boolean (value : Bool)
  | number (value : Number)
  | reference (name : ByteString)
  | operation (operation : Operation) (operands : List Node)
  | function (name : ByteString) (parameters : List Parameter) (body : Node)
  /-- A node with a tag that no kind has, and its written form if it was read. -/
  | unrecognized (tag raw : ByteString)
deriving Inhabited

namespace Node

def tag : Node → ByteString
  | missing (some kind) => kind.tag
  | missing none => ""
  | boolean _ => Kind.boolean.tag
  | number _ => Kind.number.tag
  | reference _ => Kind.reference.tag
  | operation op _ => op.tag
  | function _ _ _ => Kind.function.tag
  | unrecognized tag _ => tag

/-- Induction over scripts. The statement about an operation may be derived from the
statements about its operands. -/
@[elab_as_elim, induction_eliminator]
theorem induction {motive : Node → Prop}
    (missing : ∀ expected, motive (missing expected))
    (boolean : ∀ value, motive (boolean value))
    (number : ∀ value, motive (number value))
    (reference : ∀ name, motive (reference name))
    (operation : ∀ op operands, (∀ n ∈ operands, motive n) →
      motive (operation op operands))
    (function : ∀ name parameters body, motive body →
      motive (function name parameters body))
    (unrecognized : ∀ tag raw, motive (unrecognized tag raw)) : ∀ n, motive n
  | .missing expected => missing expected
  | .boolean value => boolean value
  | .number value => number value
  | .reference name => reference name
  | .operation op operands =>
    operation op operands fun n _ =>
      induction missing boolean number reference operation function unrecognized n
  | .function name parameters body =>
    function name parameters body
      (induction missing boolean number reference operation function unrecognized body)
  | .unrecognized tag raw => unrecognized tag raw

end Node

inductive Segment where
  | field (name : String)
  | child (index : Nat)
  | parameter (index : Nat)
deriving DecidableEq, Inhabited

abbrev Path := List Segment

namespace Segment

def text : Segment → String
  | field name => "." ++ name
  | child index => ".children[" ++ Nat.repr index ++ "]"
  | parameter index => ".parameters[" ++ Nat.repr index ++ "]"

end Segment

/-- A path as messages show it; the root is `$`. -/
def Path.text (p : Path) : String := "$" ++ String.join (p.map Segment.text)

end ScriptTree
