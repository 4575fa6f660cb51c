import ScriptTree.Starlark.Expr
import ScriptTree.Starlark.Token.Lexer

/-!
From tokens to expressions.
-/

namespace ScriptTree.Starlark

/-- Tokens not used yet, and the error after the last of them. -/
structure Parser where
  tokens : List Token
  error : Option TextError

abbrev Parse := StateT Parser (Except TextError)

namespace Parse

def current : Parse Token := do
  let s ← get
  match s.tokens, s.error with
  | t :: _, _ => return t
  | [], some e => throw e
  | [], none => return ⟨.endOfFile, ⟨1, 1⟩, ⟨1, 1⟩⟩

def advance : Parse Unit := do
  let s ← get
  match s.tokens, s.error with
  | [_], none => pure ()
  | _ :: rest, _ =>
    set { s with tokens := rest }
    let _ ← current
  | [], _ => pure ()

def failAt (position : Position) (reason : ByteString) : Parse α := throw ⟨position, reason⟩

def fail (reason : ByteString) : Parse α := do failAt (← current).stop reason

def looksAt (symbol : String) : Parse Bool := do return (← current).lexeme = .symbol symbol

def atKeyword (text : String) : Parse Bool := do return (← current).lexeme = .keyword text

def consume (want : Lexeme) : Parse Unit := do
  let t ← current
  if t.lexeme = want then advance
  else fail ("got " ++ t.lexeme.describe ++ ", want " ++ want.describe)

def identifier : Parse (String × Position) := do
  let t ← current
  match t.lexeme with
  | .identifier name =>
    advance
    return (name, t.start)
  | _ => fail "not an identifier"

def endsList (t : Lexeme) : Bool :=
  match t with
  | .endOfFile | .newline => true
  | .symbol s => [")", "]", "\x7d", "=", ";"].contains s
  | _ => false

def unaryOp? (t : Lexeme) : Option UnaryOp :=
  match t with
  | .symbol "-" => some .minus
  | .symbol "+" => some .plus
  | .symbol "~" => some .complement
  | _ => none

def joinNotIn : Parse Unit := do
  advance
  let t ← current
  if t.lexeme ≠ .keyword "in" then fail ("got " ++ t.lexeme.describe ++ ", want in")
  modify fun s => { s with tokens := { t with lexeme := .keyword "not in" } :: s.tokens.drop 1 }

def outOfFuel : Parse α := fail "expression is too deep"

mutual

def expression : Nat → Bool → Parse Expr
  | 0, _ => outOfFuel
  | fuel + 1, inParens => do
    let first ← test fuel
    if ← looksAt "," then
      let others ← moreItems fuel inParens
      return .tuple none (first :: others)
    else return first

def moreItems : Nat → Bool → Parse (List Expr)
  | 0, _ => outOfFuel
  | fuel + 1, trailing => do
    let t ← current
    if t.lexeme ≠ .symbol "," then return []
    advance
    if endsList (← current).lexeme then
      if trailing then return []
      else failAt t.start "unparenthesized tuple with trailing comma"
    let item ← test fuel
    let rest ← moreItems fuel trailing
    return item :: rest

def test : Nat → Parse Expr
  | 0 => outOfFuel
  | fuel + 1 => do
    if ← atKeyword "lambda" then return ← lambda fuel true
    let yes ← operation fuel 0
    let t ← current
    if t.lexeme = .keyword "if" then
      advance
      let condition ← operation fuel 0
      if !(← atKeyword "else") then
        failAt t.start "conditional expression without else clause"
      advance
      let no ← test fuel
      return .conditional condition yes no
    else return yes

def testBeforeIf : Nat → Parse Expr
  | 0 => outOfFuel
  | fuel + 1 => do
    if ← atKeyword "lambda" then lambda fuel false else operation fuel 0

def lambda : Nat → Bool → Parse Expr
  | 0, _ => outOfFuel
  | fuel + 1, conditional => do
    let start := (← current).start
    advance
    let params ← if ← looksAt ":" then pure [] else parameters fuel true
    consume (.symbol ":")
    let body ← if conditional then test fuel else testBeforeIf fuel
    return .lambda start params body

/-- Parameters, before each but the first of which there is a comma. -/
def parameters : Nat → Bool → Parse (List (Parameter Expr))
  | 0, _ => outOfFuel
  | fuel + 1, first => do
    let t ← current
    if t.lexeme = .symbol ")" || t.lexeme = .symbol ":" || t.lexeme = .endOfFile then return []
    if !first then consume (.symbol ",")
    if ← looksAt ")" then return []
    let parameter ← parameter fuel
    let others ← parameters fuel false
    return parameter :: others

def parameter : Nat → Parse (Parameter Expr)
  | 0 => outOfFuel
  | fuel + 1 => do
    let t ← current
    match t.lexeme with
    | .symbol "*" =>
      advance
      match (← current).lexeme with
      | .identifier _ =>
        let (name, position) ← identifier
        return .rest t.start name position
      | _ => return .bare t.start
    | .symbol "**" =>
      advance
      let (name, position) ← identifier
      return .restNamed t.start name position
    | _ =>
      let (name, position) ← identifier
      let sign := (← current).start
      if ← looksAt "=" then
        advance
        let value ← test fuel
        return .optional name position sign value
      else return .required name position

def operation : Nat → Nat → Parse Expr
  | 0, _ => outOfFuel
  | fuel + 1, level => do
    if 10 ≤ level then suffixed fuel
    else if level = 2 && (← atKeyword "not") then
      let start := (← current).start
      advance
      let operand ← operation fuel level
      return .unary start .not operand
    else
      let left ← operation fuel (level + 1)
      operators fuel level left none

def operators : Nat → Nat → Expr → Option BinaryOp → Parse Expr
  | 0, _, _, _ => outOfFuel
  | fuel + 1, level, left, before => do
    if ← atKeyword "not" then joinNotIn
    let t ← current
    match BinaryOp.ofLexeme? t.lexeme with
    | none => return left
    | some op =>
      if op.level < level then return left
      match before with
      | some earlier =>
        if op.isComparison then
          fail (earlier.symbol ++ " does not associate with " ++ op.symbol ++ " (use parens)")
      | none => pure ()
      advance
      let right ← operation fuel (op.level + 1)
      operators fuel level (.binary op left right) (some op)

/-- A primary expression with fields, indices and calls after it. -/
def suffixed : Nat → Parse Expr
  | 0 => outOfFuel
  | fuel + 1 => do
    let e ← primary fuel
    suffixes fuel e

def suffixes : Nat → Expr → Parse Expr
  | 0, _ => outOfFuel
  | fuel + 1, e => do
    match (← current).lexeme with
    | .symbol "." =>
      advance
      let (name, _) ← identifier
      suffixes fuel (.field e name)
    | .symbol "[" =>
      advance
      let e ← subscript fuel e
      suffixes fuel e
    | .symbol "(" =>
      advance
      let arguments ← callArguments fuel true
      consume (.symbol ")")
      suffixes fuel (.call e arguments)
    | _ => return e

def subscript : Nat → Expr → Parse Expr
  | 0, _ => outOfFuel
  | fuel + 1, e => do
    let low ←
      if ← looksAt ":" then pure none
      else
        let key ← expression fuel false
        pure (some key)
    match low, ← looksAt "]" with
    | some key, true =>
      advance
      return .index e key
    | _, _ =>
      let high ← bound fuel [":", "]"]
      let step ← bound fuel ["]"]
      consume (.symbol "]")
      return .slice e low high step

/-- A bound of a slice with its colon, both of which may be left out. There is none
before the given symbols. -/
def bound : Nat → List String → Parse (Option Expr)
  | 0, _ => outOfFuel
  | fuel + 1, stops => do
    if ← looksAt ":" then
      advance
      let t ← current
      if stops.any (fun stop => t.lexeme = .symbol stop) then return none
      else
        let e ← test fuel
        return some e
    else return none

def callArguments : Nat → Bool → Parse (List (Argument Expr))
  | 0, _ => outOfFuel
  | fuel + 1, first => do
    let t ← current
    if t.lexeme = .symbol ")" || t.lexeme = .endOfFile then return []
    if !first then consume (.symbol ",")
    if ← looksAt ")" then return []
    let argument ← callArgument fuel
    let others ← callArguments fuel false
    return argument :: others

def callArgument : Nat → Parse (Argument Expr)
  | 0 => outOfFuel
  | fuel + 1 => do
    let t ← current
    match t.lexeme with
    | .symbol "*" =>
      advance
      let value ← test fuel
      return .spread t.start value
    | .symbol "**" =>
      advance
      let value ← test fuel
      return .spreadNamed t.start value
    | _ =>
      let e ← test fuel
      if ← looksAt "=" then
        match e with
        | .name name position =>
          advance
          let value ← test fuel
          return .named name position value
        | _ => fail "keyword argument must have form name=expr"
      else return .positional e

def primary : Nat → Parse Expr
  | 0 => outOfFuel
  | fuel + 1 => do
    let t ← current
    match t.lexeme with
    | .identifier name =>
      advance
      return .name name t.start
    | .int value =>
      advance
      return .constant (.int value) t.start
    | .float value =>
      advance
      return .constant (.float value) t.start
    | .string bytes =>
      advance
      return .constant (.string bytes) t.start
    | .bytes bytes =>
      advance
      return .constant (.bytes bytes) t.start
    | .symbol "[" =>
      advance
      listDisplay fuel t.start
    | .symbol "\x7b" =>
      advance
      dictDisplay fuel t.start
    | .symbol "(" =>
      advance
      if ← looksAt ")" then
        advance
        return .tuple (some t.start) []
      else
        let e ← expression fuel true
        consume (.symbol ")")
        return .group t.start e
    | lexeme =>
      match unaryOp? lexeme with
      | some op =>
        advance
        let operand ← suffixed fuel
        return .unary t.start op operand
      | none => failAt t.start ("got " ++ lexeme.describe ++ ", want primary expression")

def listDisplay : Nat → Position → Parse Expr
  | 0, _ => outOfFuel
  | fuel + 1, start => do
    if ← looksAt "]" then
      advance
      return .list start []
    let first ← test fuel
    if ← atKeyword "for" then
      let clauses ← clauses fuel "]"
      return .listOf start first clauses
    let others ← moreItems fuel true
    consume (.symbol "]")
    return .list start (first :: others)

def dictDisplay : Nat → Position → Parse Expr
  | 0, _ => outOfFuel
  | fuel + 1, start => do
    if ← looksAt "\x7d" then
      advance
      return .dict start []
    let (key, value) ← dictEntry fuel
    if ← atKeyword "for" then
      let clauses ← clauses fuel "\x7d"
      return .dictOf start key value clauses
    let others ← moreEntries fuel
    consume (.symbol "\x7d")
    return .dict start ((key, value) :: others)

def dictEntry : Nat → Parse (Expr × Expr)
  | 0 => outOfFuel
  | fuel + 1 => do
    let key ← test fuel
    consume (.symbol ":")
    let value ← test fuel
    return (key, value)

def moreEntries : Nat → Parse (List (Expr × Expr))
  | 0 => outOfFuel
  | fuel + 1 => do
    if ← looksAt "," then
      advance
      if ← looksAt "\x7d" then return []
      let entry ← dictEntry fuel
      let rest ← moreEntries fuel
      return entry :: rest
    else return []

def clauses : Nat → String → Parse (List (Clause Expr))
  | 0, _ => outOfFuel
  | fuel + 1, closing => do
    let t ← current
    match t.lexeme with
    | .keyword "for" =>
      advance
      let target ← loopTarget fuel
      consume (.keyword "in")
      let items ← operation fuel 0
      let rest ← clauses fuel closing
      return .loop target items :: rest
    | .keyword "if" =>
      advance
      let condition ← testBeforeIf fuel
      let rest ← clauses fuel closing
      return .condition condition :: rest
    | lexeme =>
      if lexeme = .symbol closing then
        advance
        return []
      else fail ("got " ++ lexeme.describe ++ ", want '" ++ closing ++ "', for, or if")

def loopTarget : Nat → Parse Expr
  | 0 => outOfFuel
  | fuel + 1 => do
    let first ← suffixed fuel
    if ← looksAt "," then
      let others ← moreTargets fuel
      return .tuple none (first :: others)
    else return first

def moreTargets : Nat → Parse (List Expr)
  | 0 => outOfFuel
  | fuel + 1 => do
    if ← looksAt "," then
      advance
      if endsList (← current).lexeme then return []
      let e ← suffixed fuel
      let rest ← moreTargets fuel
      return e :: rest
    else return []

end

def whole (fuel : Nat) : Parse Expr := do
  let e ← expression fuel false
  if (← current).lexeme = .newline then advance
  let t ← current
  if t.lexeme ≠ .endOfFile then
    fail ("got " ++ t.lexeme.describe ++ " after expression, want EOF")
  return e

end Parse

def Expr.ofText (text : String) : Except TextError Expr :=
  let (tokens, error) := Starlark.tokens text
  (Parse.whole (20 * tokens.length + 40)).run' ⟨tokens, error⟩

end ScriptTree.Starlark
