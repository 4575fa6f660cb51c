import ScriptTree.Js.Expr
import ScriptTree.Number.Layout
import ScriptTree.Text.Lines

/-!
Source text of expressions: two spaces a level, one statement a line, and
parentheses only where precedence or the shape of the tree requires them.
-/

namespace ScriptTree.Js

def indentation (depth : Nat) : ByteString :=
  Text.toBytes (String.ofList (List.replicate (2 * depth) ' '))

def Parameters.print (p : Parameters) : ByteString :=
  let rest : List ByteString := match p.rest with
    | some name => [Text.toBytes "..." ++ name]
    | none => []
  List.intercalate (Text.toBytes ", ") (p.items ++ rest)

def Head.print (h : Head) : ByteString :=
  Text.toBytes "function" ++ Text.toBytes (if h.isGenerator then "*" else "") ++
    (match h.name with
      | some name => Text.toBytes " " ++ name
      | none => []) ++
    Text.toBytes "(" ++ (match h.parameters with
      | some p => p.print
      | none => []) ++ Text.toBytes ") "

/-- A body of lines, or an empty one, of a function that stands at `depth`. A line
without text has no indentation. -/
def braces (depth : Nat) (lines : List ByteString) : ByteString :=
  if lines.isEmpty then Text.toBytes "\x7b\x7d"
  else
    Text.toBytes "\x7b\n" ++
      (lines.map fun line =>
        (if line.isEmpty then [] else indentation (depth + 1) ++ line) ++ Text.toBytes "\n").flatten ++
      indentation depth ++ Text.toBytes "\x7d"

def printDirective (text : ByteString) : ByteString := Text.toBytes (text.quote ++ ";")

namespace Expr

/-- Whether an operand needs parentheses. Operators group to the left, so a right
operand of equal precedence keeps its own; a function would start a declaration;
a sign would merge with the operator before it. -/
def needsParens (e : Expr) (parent : Nat) (right : Bool) : Bool :=
  match e with
  | binary op _ _ => if right then op.precedence ≤ parent else op.precedence < parent
  | function _ _ _ | bodiless _ => true
  | number x => right && x.signbit && !x.isNaN
  | absent | boolean _ | identifier _ => false

def parenthesize (needed : Bool) (text : ByteString) : ByteString :=
  if needed then Text.toBytes "(" ++ text ++ Text.toBytes ")" else text

def returnStatement (e : Expr) (text : ByteString) : ByteString :=
  match e with
  | absent => Text.toBytes "return;"
  | _ => Text.toBytes "return " ++ text ++ Text.toBytes ";"

end Expr

mutual

def Expr.print (depth : Nat) : Expr → ByteString
  | .absent => []
  | .boolean value => Text.toBytes (if value then "true" else "false")
  | .number value => Text.toBytes value.literal
  | .identifier name => name
  | .binary op left right =>
    Expr.parenthesize (left.needsParens op.precedence false) (left.print depth) ++
      Text.toBytes (" " ++ op.symbol ++ " ") ++
      Expr.parenthesize (right.needsParens op.precedence true) (right.print depth)
  | .function head directives statements =>
    head.print ++
      braces depth (directives.map printDirective ++ printStatements (depth + 1) statements)
  | .bodiless head => head.print ++ braces depth []

def Statement.print (depth : Nat) : Statement → ByteString
  | .absent => []
  | .returned e => e.returnStatement (e.print depth)

def printStatements (depth : Nat) : List Statement → List ByteString
  | [] => []
  | s :: rest => s.print depth :: printStatements depth rest

end

def Tree.print : Tree → ByteString
  | expression e => e.print 0
  | statement s => s.print 0
  | binding name => name
  | parameters p => Text.toBytes "(" ++ p.print ++ Text.toBytes ")"
  | body directives statements =>
    braces 0 (directives.map printDirective ++ printStatements 1 statements)

def dropFinalBreaks (text : ByteString) : ByteString :=
  (text.reverse.dropWhile (· = 10)).reverse

def Tree.source (t : Tree) : ByteString := dropFinalBreaks t.print

def Expr.source (e : Expr) : ByteString := (Tree.expression e).source

end ScriptTree.Js
