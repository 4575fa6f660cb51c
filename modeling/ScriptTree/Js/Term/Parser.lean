import ScriptTree.Js.Term
import ScriptTree.Js.Token
import ScriptTree.Text.Quoted

/-!
From tokens to trees. Reading stops at the first token that fits nowhere.
-/

namespace ScriptTree.Js

structure Fault where
  position : Position
  reason : String
deriving DecidableEq, Inhabited

namespace Fault

def message (f : Fault) : String :=
  Nat.repr f.position.line ++ ":" ++ Nat.repr f.position.column ++ ": " ++ f.reason

end Fault

abbrev Parse := StateT (List Token) (Except Fault)

namespace Parse

def current : Parse Token := do
  match (← get).head? with
  | some t =>
    if t.lexeme = .stray then throw ⟨t.position, "Syntax error " ++ t.showStray⟩
    return t
  | none => return ⟨.finish, "", ⟨1, 0⟩, false⟩

def advance : Parse Unit := do
  match ← get with
  | _ :: t :: rest =>
    set (t :: rest)
    let _ ← current
  | _ => pure ()

def describe (t : Token) : String :=
  if t.lexeme = .finish then "end of file" else Text.quote t.text

def unexpected : Parse α := do
  let t ← current
  throw ⟨t.position, "Unexpected " ++ describe t⟩

def expected (want : String) : Parse α := do
  let t ← current
  throw ⟨t.position, "Expected " ++ want ++ " but found " ++ describe t⟩

def looksAt (symbol : String) : Parse Bool := do return (← current).lexeme = .symbol symbol

def atWord (text : String) : Parse Bool := do return (← current).lexeme = .word text

def expect (symbol : String) : Parse Unit := do
  if ← looksAt symbol then advance else expected (Text.quote symbol)

def identifier? (t : Token) : Option String :=
  match t.lexeme with
  | .word text => if Token.isKeyword text then none else some text
  | _ => none

def identifier : Parse String := do
  match identifier? (← current) with
  | some name =>
    advance
    return name
  | none => expected "identifier"

/-- A semicolon ends a statement; a brace, a line or the text may end it as well. -/
def semicolon : Parse Unit := do
  let t ← current
  let closes := t.afterBreak || t.lexeme = .symbol "\x7d" || t.lexeme = .finish
  if t.lexeme = .symbol ";" || !closes then expect ";"

def parameters : Nat → Parse (List Name)
  | 0 => unexpected
  | fuel + 1 => do
    if ← looksAt ")" then
      advance
      return []
    let name ← identifier
    if ← looksAt "," then
      advance
      return .text name :: (← parameters fuel)
    expect ")"
    return [.text name]

def prefixOps : List String := ["!", "-", "+", "~", "++", "--", "typeof", "void", "delete", "new"]

def infixOf? (t : Token) : Option Infix :=
  match t.lexeme with
  | .word _ | .symbol _ => Infix.ofSymbol? t.text
  | _ => none

def isTarget : Term → Bool
  | .reference _ | .member _ _ => true
  | _ => false

def grouped : Term → Term
  | .function _ name parameters body => .function true name parameters body
  | e => e

mutual

def operation (inFunction : Bool) : Nat → Nat → Parse Term
  | 0, _ => unexpected
  | fuel + 1, level => do
    let left ← prefixed inFunction fuel
    operations inFunction fuel level left

def operations (inFunction : Bool) : Nat → Nat → Term → Parse Term
  | 0, _, _ => unexpected
  | fuel + 1, level, left => do
    match infixOf? (← current) with
    | some op =>
      if op.level < level then return left
      advance
      let right ← operation inFunction fuel (op.level + 1)
      operations inFunction fuel level (.binary op left right)
    | none => return left

def prefixed (inFunction : Bool) : Nat → Parse Term
  | 0 => unexpected
  | fuel + 1 => do
    let t ← current
    let isPrefix := match t.lexeme with
      | .word text => prefixOps.contains text || (text = "await" && !inFunction)
      | .symbol text => prefixOps.contains text
      | _ => false
    if isPrefix then
      advance
      let operand ← prefixed inFunction fuel
      return .unary t.text operand
    else
      let e ← primary inFunction fuel
      suffixes inFunction fuel e

def suffixes (inFunction : Bool) : Nat → Term → Parse Term
  | 0, _ => unexpected
  | fuel + 1, e => do
    if ← looksAt "." then
      advance
      match (← current).lexeme with
      | .word name =>
        advance
        suffixes inFunction fuel (.member e name)
      | _ => expected "identifier"
    else if ← looksAt "(" then
      advance
      let values ← arguments inFunction fuel
      suffixes inFunction fuel (.call e values)
    else return e

def arguments (inFunction : Bool) : Nat → Parse (List Term)
  | 0 => unexpected
  | fuel + 1 => do
    if ← looksAt ")" then
      advance
      return []
    let e ← expression inFunction fuel
    if ← looksAt "," then
      advance
      return e :: (← arguments inFunction fuel)
    expect ")"
    return [e]

def primary (inFunction : Bool) : Nat → Parse Term
  | 0 => unexpected
  | fuel + 1 => do
    let t ← current
    match t.lexeme with
    | .number value =>
      advance
      return .number value
    | .symbol "(" =>
      advance
      if ← looksAt ")" then
        advance
        expected (Text.quote "=>")
      let e ← expression inFunction fuel
      expect ")"
      return grouped e
    | .word "true" => do
      advance
      return .boolean true
    | .word "false" => do
      advance
      return .boolean false
    | .word "null" => do
      advance
      return .null
    | .word "this" => do
      advance
      return .self
    | .word "function" =>
      advance
      let name := identifier? (← current)
      if name.isSome then advance
      let (parameters, body) ← callable fuel
      return .function false (name.map .text) parameters body
    | .word "class" =>
      advance
      if (identifier? (← current)).isSome then advance
      expect "\x7b"
      unexpected
    | .word "import" =>
      advance
      expect "("
      unexpected
    | _ =>
      match identifier? t with
      | some name =>
        advance
        return .reference (.text name)
      | none => unexpected

def expression (inFunction : Bool) : Nat → Parse Term
  | 0 => unexpected
  | fuel + 1 => do
    let start ← current
    let left ← operation inFunction fuel 0
    if ← looksAt "=" then
      advance
      let right ← expression inFunction fuel
      if !isTarget left then throw ⟨start.position, "Invalid assignment target"⟩
      return .assign left right
    else return left

def callable : Nat → Parse (List Name × List Term.Statement)
  | 0 => unexpected
  | fuel + 1 => do
    expect "("
    let names ← parameters fuel
    expect "\x7b"
    let body ← statements true fuel
    return (names, body)

def statements (inFunction : Bool) : Nat → Parse (List Term.Statement)
  | 0 => unexpected
  | fuel + 1 => do
    let t ← current
    if inFunction && t.lexeme = .symbol "\x7d" then
      advance
      return []
    if !inFunction && t.lexeme = .finish then return []
    if t.lexeme = .symbol ";" then
      advance
      statements inFunction fuel
    else
      let s ← statement inFunction fuel
      return s :: (← statements inFunction fuel)

def statement (inFunction : Bool) : Nat → Parse Term.Statement
  | 0 => unexpected
  | fuel + 1 => do
    if ← atWord "return" then
      advance
      let t ← current
      let bare := t.afterBreak || t.lexeme = .finish || t.lexeme = .symbol ";" ||
        t.lexeme = .symbol "\x7d"
      let value ←
        if bare then pure none
        else do
          let e ← expression inFunction fuel
          pure (some e)
      semicolon
      return .give value
    else if ← atWord "function" then
      advance
      let name ← identifier
      let (parameters, body) ← callable fuel
      return .declare (.text name) parameters body
    else
      let e ← expression inFunction fuel
      semicolon
      return .evaluate e

end

def value (fuel : Nat) : Parse Code := do
  let e ← expression false fuel
  semicolon
  return ⟨some e, ← statements false fuel⟩

def declarations (fuel : Nat) : Parse Code := do
  return ⟨none, ← statements false fuel⟩

end Parse

namespace Code

/-- The name that a value is given while it is read. -/
def holder : String := "var __triptjs_expr = "

/-- A text that starts like this declares a function. -/
def declares (text : String) : Bool := "function ".toList.isPrefixOf text.toList

def script (text : String) : String :=
  if declares text then text ++ "\n" else holder ++ text ++ ";\n"

def ofText (text : String) : Except Fault Code :=
  if declares text then
    let tokens := Token.ofText 0 (text ++ "\n")
    (Parse.declarations (20 * tokens.length + 20)).run' tokens
  else
    let tokens := Token.ofText holder.length (text ++ ";\n")
    (Parse.value (20 * tokens.length + 20)).run' tokens

end Code

end ScriptTree.Js
