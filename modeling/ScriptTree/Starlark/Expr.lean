import ScriptTree.Starlark.Token

/-!
Starlark expressions.
-/

namespace ScriptTree.Starlark

inductive UnaryOp where
  | plus
  | minus
  | complement
  | not
deriving DecidableEq, Inhabited

inductive BinaryOp where
  | or
  | and
  | equal
  | notEqual
  | less
  | greater
  | lessEqual
  | greaterEqual
  | isIn
  | notIn
  | bitOr
  | bitXor
  | bitAnd
  | shiftLeft
  | shiftRight
  | sub
  | add
  | mul
  | mod
  | div
  | floorDiv
deriving DecidableEq, Inhabited

namespace UnaryOp

def symbol : UnaryOp → String
  | plus => "+"
  | minus => "-"
  | complement => "~"
  | not => "not"

end UnaryOp

namespace BinaryOp

def symbol : BinaryOp → String
  | or => "or"
  | and => "and"
  | equal => "=="
  | notEqual => "!="
  | less => "<"
  | greater => ">"
  | lessEqual => "<="
  | greaterEqual => ">="
  | isIn => "in"
  | notIn => "not in"
  | bitOr => "|"
  | bitXor => "^"
  | bitAnd => "&"
  | shiftLeft => "<<"
  | shiftRight => ">>"
  | sub => "-"
  | add => "+"
  | mul => "*"
  | mod => "%"
  | div => "/"
  | floorDiv => "//"

/-- Binding power, from zero up. The third level is that of unary negation. -/
def level : BinaryOp → Nat
  | or => 0
  | and => 1
  | equal | notEqual | less | greater | lessEqual | greaterEqual | isIn | notIn => 3
  | bitOr => 4
  | bitXor => 5
  | bitAnd => 6
  | shiftLeft | shiftRight => 7
  | sub | add => 8
  | mul | mod | div | floorDiv => 9

/-- Comparisons do not associate. -/
def isComparison (op : BinaryOp) : Bool := op.level = 3

def all : List BinaryOp := [
  or, and, equal, notEqual, less, greater, lessEqual, greaterEqual, isIn, notIn, bitOr, bitXor, bitAnd,
  shiftLeft, shiftRight, sub, add, mul, mod, div, floorDiv]

def ofLexeme? (t : Lexeme) : Option BinaryOp :=
  match t with
  | .symbol text | .keyword text => all.find? (·.symbol = text)
  | _ => none

end BinaryOp

inductive Constant where
  | int (value : Int)
  | float (value : Number)
  | string (value : ByteString)
  | bytes (value : ByteString)
deriving DecidableEq, Inhabited

inductive Clause (ε : Type) where
  | loop (target items : ε)
  | condition (test : ε)
deriving Inhabited

inductive Argument (ε : Type) where
  | positional (value : ε)
  | named (name : String) (position : Position) (value : ε)
  /-- Any number of arguments by position. -/
  | spread (position : Position) (value : ε)
  /-- Any number of arguments by name. -/
  | spreadNamed (position : Position) (value : ε)
deriving Inhabited

inductive Parameter (ε : Type) where
  | required (name : String) (position : Position)
  /-- A parameter with a default, and the place of the sign between the two. -/
  | optional (name : String) (position sign : Position) (default : ε)
  /-- A mark after which parameters are given by name only. -/
  | bare (position : Position)
  /-- A parameter that gathers arguments by position. -/
  | rest (star : Position) (name : String) (position : Position)
  /-- A parameter that gathers arguments by name. -/
  | restNamed (star : Position) (name : String) (position : Position)
deriving Inhabited

inductive Expr where
  | name (name : String) (position : Position)
  | constant (value : Constant) (position : Position)
  | group (position : Position) (value : Expr)
  | list (position : Position) (items : List Expr)
  /-- A tuple, with the place of its parenthesis if it has any of its own. -/
  | tuple (position : Option Position) (items : List Expr)
  | dict (position : Position) (entries : List (Expr × Expr))
  | unary (position : Position) (op : UnaryOp) (operand : Expr)
  | binary (op : BinaryOp) (left right : Expr)
  | conditional (condition yes no : Expr)
  | field (value : Expr) (name : String)
  | index (value key : Expr)
  | slice (value : Expr) (low high step : Option Expr)
  | call (function : Expr) (arguments : List (Argument Expr))
  /-- A list built by loops and conditions. -/
  | listOf (position : Position) (body : Expr) (clauses : List (Clause Expr))
  | dictOf (position : Position) (key value : Expr) (clauses : List (Clause Expr))
  | lambda (position : Position) (parameters : List (Parameter Expr)) (body : Expr)
deriving Inhabited

namespace Expr

mutual

def start : Expr → Position
  | name _ p | constant _ p | group p _ | list p _ | dict p _ | unary p _ _ | listOf p _ _
  | dictOf p _ _ _ | lambda p _ _ => p
  | tuple (some p) _ => p
  | tuple none items => startOfFirst items
  | binary _ left _ => start left
  | conditional _ yes _ => start yes
  | field value _ => start value
  | index value _ => start value
  | slice value _ _ _ => start value
  | call function _ => start function

def startOfFirst : List Expr → Position
  | [] => ⟨1, 1⟩
  | e :: _ => start e

end

def ungrouped : Expr → Expr
  | group _ e => ungrouped e
  | e => e

/-- What an expression is called where it stands in place of a name. -/
def form : Expr → String
  | name _ _ => "ident"
  | constant _ _ => "literal"
  | group _ _ => "parenexpr"
  | list _ _ => "listexpr"
  | tuple _ _ => "tupleexpr"
  | dict _ _ => "dictexpr"
  | unary _ _ _ => "unaryexpr"
  | binary _ _ _ => "binaryexpr"
  | conditional _ _ _ => "condexpr"
  | field _ _ => "dotexpr"
  | index _ _ => "indexexpr"
  | slice _ _ _ _ => "sliceexpr"
  | call _ _ => "callexpr"
  | listOf _ _ _ | dictOf _ _ _ _ => "comprehension"
  | lambda _ _ _ => "lambdaexpr"

end Expr

namespace Argument

def start : Argument Expr → Position
  | positional e => e.start
  | named _ p _ | spread p _ | spreadNamed p _ => p

end Argument

end ScriptTree.Starlark
