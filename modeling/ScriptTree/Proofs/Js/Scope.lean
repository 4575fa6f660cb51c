import ScriptTree.Js.Expr
import ScriptTree.Proofs.Script.Scope

/-!
Scopes of the target language. A named function expression binds its parameters in its
body, the one that gathers the rest behind the others, and its own name around them.
-/

namespace ScriptTree.Js

def Head.frame (head : Head) : Frame :=
  ⟨head.name, match head.parameters with
    | some parameters => parameters.items ++ parameters.rest.toList
    | none => []⟩

mutual

/-- The expression with each bound identifier replaced by a name for its binder. -/
def Expr.resolve (write : Binder → ByteString) (scope : Scope) : Expr → Expr
  | .absent => .absent
  | .boolean value => .boolean value
  | .number value => .number value
  | .identifier name => .identifier (scope.resolve write name)
  | .binary op left right =>
    .binary op (left.resolve write scope) (right.resolve write scope)
  | .function head directives statements =>
    .function head directives (resolveStatements write (head.frame :: scope) statements)
  | .bodiless head => .bodiless head

def Statement.resolve (write : Binder → ByteString) (scope : Scope) :
    Statement → Statement
  | .absent => .absent
  | .returned value => .returned (value.resolve write scope)

def resolveStatements (write : Binder → ByteString) (scope : Scope) :
    List Statement → List Statement
  | [] => []
  | s :: rest => s.resolve write scope :: resolveStatements write scope rest

end

theorem resolve_named (write : Binder → ByteString) (scope : Scope) (name : ByteString)
    (parameters : List ByteString) (e : Expr) :
    (Expr.named name parameters [e]).resolve write scope =
      .named name parameters [e.resolve write (⟨some name, parameters⟩ :: scope)] := by
  simp [Expr.named, Expr.resolve, Statement.resolve, resolveStatements, Head.frame]

/-! All names of an expression. -/

mutual

/-- The identifiers of an expression and the names that its functions bind. -/
def Expr.names : Expr → List ByteString
  | .identifier name => [name]
  | .binary _ left right => left.names ++ right.names
  | .function head _ statements => head.frame.names ++ namesOfStatements statements
  | .bodiless head => head.frame.names
  | .absent | .boolean _ | .number _ => []

def Statement.names : Statement → List ByteString
  | .absent => []
  | .returned value => value.names

def namesOfStatements : List Statement → List ByteString
  | [] => []
  | s :: rest => s.names ++ namesOfStatements rest

end

theorem names_named (name : ByteString) (parameters : List ByteString) (e : Expr) :
    (Expr.named name parameters [e]).names = name :: parameters ++ e.names := by
  simp [Expr.named, Expr.names, Statement.names, namesOfStatements, Head.frame, Frame.names]

end ScriptTree.Js
