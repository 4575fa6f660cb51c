import ScriptTree.Number
import ScriptTree.Text.ByteString

/-!
Expressions of the target language: literals, identifiers, binary operators and
named functions that return expressions.
-/

namespace ScriptTree.Js

inductive Operator where
  | and
  | or
  | equal
  | add
  /-- An operator that the compiler does not emit. -/
  | other (symbol : String)
deriving DecidableEq, Inhabited

namespace Operator

def symbol : Operator → String
  | and => "&&"
  | or => "||"
  | equal => "=="
  | add => "+"
  | other symbol => symbol

def ofSymbol (text : String) : Operator :=
  if text = "&&" then and
  else if text = "||" then or
  else if text = "==" then equal
  else if text = "+" then add
  else other text

/-- Binding power; a higher one binds tighter and an unknown operator has none. -/
def precedence : Operator → Nat
  | or => 1
  | and => 2
  | equal => 6
  | add => 9
  | other _ => 0

end Operator

/-- A list of parameter names, with a last one that may gather the rest. -/
structure Parameters where
  items : List ByteString := []
  rest : Option ByteString := none
deriving DecidableEq, Inhabited

/-- All of a function but its body. -/
structure Head where
  isAsync : Bool := false
  isGenerator : Bool := false
  name : Option ByteString := none
  parameters : Option Parameters := none
deriving DecidableEq, Inhabited

mutual

inductive Expr where
  /-- An empty place. -/
  | absent
  | boolean (value : Bool)
  | number (value : Number)
  | identifier (name : ByteString)
  | binary (operator : Operator) (left right : Expr)
  | function (head : Head) (directives : List ByteString) (statements : List Statement)
  /-- A function without a body. -/
  | bodiless (head : Head)

inductive Statement where
  /-- An empty place. -/
  | absent
  | returned (value : Expr)

end

instance : Inhabited Expr := ⟨.absent⟩

instance : Inhabited Statement := ⟨.absent⟩

namespace Expr

/-- The function of a given name that returns each of the given expressions. -/
def named (name : ByteString) (parameters : List ByteString) (returns : List Expr) : Expr :=
  function ⟨false, false, some name, some ⟨parameters, none⟩⟩ [] (returns.map .returned)

end Expr

inductive Tree where
  | expression (value : Expr)
  | statement (value : Statement)
  | binding (name : ByteString)
  | parameters (value : Parameters)
  | body (directives : List ByteString) (statements : List Statement)
deriving Inhabited

end ScriptTree.Js
