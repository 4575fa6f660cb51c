import ScriptTree.Number

/-!
Source text as a tree: expressions and the statements of function bodies.
-/

namespace ScriptTree.Js

inductive Infix where
  | or
  | and
  | other (symbol : String) (level : Nat)
  | equal
  | add
deriving DecidableEq, Inhabited

namespace Infix

def symbol : Infix → String
  | or => "||"
  | and => "&&"
  | equal => "=="
  | add => "+"
  | other symbol _ => symbol

/-- Binding power; all operators group to the left. -/
def level : Infix → Nat
  | or => 1
  | and => 2
  | equal => 6
  | add => 9
  | other _ level => level

def levels : List (List String) := [
  ["??"], [], ["|"], ["^"], ["&"], ["!=", "===", "!=="], ["<", ">", "<=", ">=", "in", "instanceof"],
  ["<<", ">>"], ["-"], ["*", "/", "%"]]

def ofSymbol? (text : String) : Option Infix :=
  match text with
  | "||" => some or
  | "&&" => some and
  | "==" => some equal
  | "+" => some add
  | text =>
    (levels.zipIdx.find? (fun entry => entry.1.contains text)).map fun entry =>
      other text (entry.2 + 1)

end Infix

inductive Name where
  | text (text : String)
  /-- A name that is free to choose, by its place among those in force. -/
  | slot (index : Nat)
deriving DecidableEq, Inhabited

mutual

inductive Term where
  | boolean (value : Bool)
  | number (value : Number)
  | null
  | self
  | undefined
  | reference (name : Name)
  | unary (operator : String) (operand : Term)
  | binary (operator : Infix) (left right : Term)
  | assign (target value : Term)
  | member (object : Term) (name : String)
  | call (function : Term) (arguments : List Term)
  /-- A function, which may stand in parentheses of its own. -/
  | function (grouped : Bool) (name : Option Name) (parameters : List Name)
      (body : List Term.Statement)

inductive Term.Statement where
  | give (value : Option Term)
  | evaluate (value : Term)
  | declare (name : Name) (parameters : List Name) (body : List Term.Statement)

end

instance : Inhabited Term := ⟨.null⟩

namespace Term

instance : Inhabited Statement := ⟨.give none⟩

end Term

structure Code where
  value : Option Term
  statements : List Term.Statement
deriving Inhabited

end ScriptTree.Js
