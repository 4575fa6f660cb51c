import ScriptTree.Number
import ScriptTree.Text.ByteString

/-!
The tokens of Starlark expressions.
-/

namespace ScriptTree.Starlark

/-- A place in the text of an expression, counted in characters from one. -/
structure Position where
  line : Nat
  column : Nat
deriving DecidableEq, Inhabited

inductive Lexeme where
  | endOfFile
  | newline
  | indent
  | outdent
  | identifier (name : String)
  | int (value : Int)
  | float (value : Number)
  | string (value : ByteString)
  | bytes (value : ByteString)
  /-- An operator or a bracket, by its symbol. -/
  | symbol (text : String)
  | keyword (text : String)
  /-- A word that is set aside and has no use. -/
  | illegal
deriving DecidableEq, Inhabited

namespace Lexeme

def describe : Lexeme → String
  | endOfFile => "end of file"
  | newline => "newline"
  | indent => "indent"
  | outdent => "outdent"
  | identifier _ => "identifier"
  | int _ => "int literal"
  | float _ => "float literal"
  | string _ => "string literal"
  | bytes _ => "bytes literal"
  | symbol text => "'" ++ text ++ "'"
  | keyword text => text
  | illegal => "illegal token"

end Lexeme

structure Token where
  lexeme : Lexeme
  start : Position
  stop : Position
deriving DecidableEq, Inhabited

structure TextError where
  position : Position
  reason : ByteString
deriving DecidableEq, Inhabited

def expressionName : String := "reconcile"

namespace TextError

def message (e : TextError) : ByteString :=
  expressionName ++ ":" ++ Nat.repr e.position.line ++ ":" ++ Nat.repr e.position.column ++
    ": " ++ e.reason

end TextError

def keywords : List String := [
  "and", "break", "continue", "def", "elif", "else", "for", "if", "in", "lambda", "load", "not",
  "or", "pass", "return", "while"]

def illegalWords : List String := [
  "as", "class", "del", "except", "finally", "from", "global", "import", "is", "nonlocal",
  "raise", "try", "with", "yield"]

end ScriptTree.Starlark
