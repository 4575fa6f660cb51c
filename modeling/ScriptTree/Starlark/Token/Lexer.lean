import ScriptTree.Starlark.Token.Literal
import ScriptTree.Text.Letter

/-!
From characters to tokens. Line breaks count outside brackets, where indentation
counts too. A null character ends the text.
-/

namespace ScriptTree.Starlark

structure Lexer where
  rest : List Char
  position : Position := ⟨1, 1⟩
  lineStart : Bool := true
  depth : Nat := 0
  indents : List Nat := [0]
  /-- Indentation tokens not given yet: positive for indents, negative for outdents. -/
  pending : Int := 0

namespace Lexer

def peek (l : Lexer) : Option Char :=
  match l.rest with
  | c :: _ => if c.toNat = 0 then none else some c
  | [] => none

def advance (l : Lexer) : Lexer :=
  match l.rest with
  | '\n' :: rest => { l with rest, position := ⟨l.position.line + 1, 1⟩ }
  | _ :: rest => { l with rest, position := ⟨l.position.line, l.position.column + 1⟩ }
  | [] => l

def skip (l : Lexer) : Nat → Lexer
  | 0 => l
  | n + 1 => l.advance.skip n

def fail (l : Lexer) (reason : ByteString) : Except TextError α := .error ⟨l.position, reason⟩

/-! Spaces. -/

/-- Skips the spaces at the start of a line and gives the column they reach. -/
def leading : Nat → Nat → Lexer → Nat × Lexer
  | 0, column, l => (column, l)
  | fuel + 1, column, l =>
    match l.peek with
    | some ' ' => leading fuel (column + 1) l.advance
    | some '\t' => leading fuel (column + (8 - (l.position.column - 1) % 8)) l.advance
    | _ => (column, l)

def skipWhile (p : Char → Bool) : Nat → Lexer → Lexer
  | 0, l => l
  | fuel + 1, l =>
    match l.peek with
    | some c => if p c then skipWhile p fuel l.advance else l
    | none => l

def outdent (column : Nat) : List Nat → Nat × List Nat
  | [] => (0, [])
  | i :: outer =>
    if column < i then
      let (n, left) := outdent column outer
      (n + 1, left)
    else (0, i :: outer)

def indentTo (l : Lexer) (column : Nat) : Except TextError Lexer :=
  let current := l.indents.head?.getD 0
  if current < column then
    .ok { l with pending := l.pending + 1, indents := column :: l.indents }
  else if column < current then
    let (n, left) := outdent column l.indents
    if left.head?.getD 0 ≠ column then
      l.fail "unindent does not match any outer indentation level"
    else .ok { l with pending := l.pending - n, indents := left }
  else .ok l

/-! Tokens. -/

def token (start : Lexer) (lexeme : Lexeme) (stop : Lexer) : Token × Lexer :=
  (⟨lexeme, start.position, stop.position⟩, stop)

def symbols : List String := [
  "<<=", ">>=", "//=", "**",
  "<=", ">=", "==", "!=", "+=", "-=", "*=", "/=", "%=", "&=", "|=", "^=", "<<", ">>", "//",
  "+", "-", "*", "/", "%", "&", "|", "^", "~", "<", ">", "=", ":", ";", ",", ".",
  "(", ")", "[", "]", "\x7b", "\x7d"]

def isWordStart (c : Char) : Bool := c = '_' || Text.isLetter c

def isWord (c : Char) : Bool := isWordStart c || c.isDigit

def isQuote (c : Char) : Bool := c = '"' || c = '\''

/-- The characters of a string up to its closing quotes, and their number with the
quotes. -/
def stringBody (quote : Char) (triple : Bool) :
    Nat → Nat → List Char → List Char → Except String (List Char × Nat)
  | 0, _, _, _ => .error "unexpected EOF in string"
  | fuel + 1, quotes, acc, cs =>
    match cs with
    | [] => .error "unexpected EOF in string"
    | '\\' :: rest =>
      match rest with
      | [] => .error "unexpected EOF in string"
      | c :: rest => stringBody quote triple fuel 0 (c :: '\\' :: acc) rest
    | c :: rest =>
      if c = quote then
        if !triple then .ok (acc.reverse, acc.length + 1)
        else if quotes = 2 then .ok ((acc.drop 2).reverse, acc.length + 1)
        else stringBody quote triple fuel (quotes + 1) (c :: acc) rest
      else if c = '\n' && !triple then .error "unexpected newline in string"
      else stringBody quote triple fuel 0 (c :: acc) rest

def string (start l : Lexer) (raw isBytes : Bool) : Except TextError (Token × Lexer) :=
  let quote := l.peek.getD '"'
  let triple := l.rest.take 3 = [quote, quote, quote]
  let opening := if triple then 3 else 1
  match stringBody quote triple (l.rest.length + 1) 0 [] (l.rest.drop opening) with
  | .error reason => .error ⟨start.position, reason⟩
  | .ok (body, length) =>
    match Literal.value raw isBytes body with
    | .error reason => .error ⟨l.position, reason⟩
    | .ok bytes =>
      let lexeme : Lexeme := if isBytes then .bytes bytes else .string bytes
      .ok (start.token lexeme (l.skip (opening + length)))

structure Numeral where
  text : List Char
  isFloat : Bool

def digitsOf (base : Nat) (cs : List Char) : List Char := cs.takeWhile (Number.isDigitOf base)

def exponentText (cs : List Char) : Except Nat (List Char) :=
  match cs with
  | mark :: rest =>
    if mark = 'e' || mark = 'E' then
      match rest with
      | sign :: tail =>
        if sign = '+' || sign = '-' then
          if (digitsOf 10 tail).isEmpty then .error 2
          else .ok (mark :: sign :: digitsOf 10 tail)
        else .ok (mark :: digitsOf 10 rest)
      | [] => .ok [mark]
    else .ok []
  | [] => .ok []

/-- Digits, an optional fraction and an optional exponent; an error gives the number
of characters before it. -/
def decimalText (whole cs : List Char) : Except Nat Numeral :=
  match cs with
  | '.' :: rest =>
    let fraction := digitsOf 10 rest
    match exponentText (rest.drop fraction.length) with
    | .ok e => .ok ⟨whole ++ '.' :: fraction ++ e, true⟩
    | .error n => .error (whole.length + 1 + fraction.length + n)
  | _ =>
    match exponentText cs with
    | .ok e => .ok ⟨whole ++ e, !e.isEmpty⟩
    | .error n => .error (whole.length + n)

def finishNumber (l : Lexer) (n : Numeral) : Except TextError (Token × Lexer) :=
  let stop := l.skip n.text.length
  if n.isFloat then
    match Number.read? (String.ofList n.text) with
    | some reading =>
      if reading.overflow then stop.fail "invalid float literal"
      else .ok (l.token (.float reading.value) stop)
    | none => stop.fail "invalid float literal"
  else
    match Literal.int? n.text with
    | some value => .ok (l.token (.int value) stop)
    | none => l.fail "invalid int literal"

def basedNumber (l : Lexer) (base : Nat) (name : String) (atStart : Bool) :
    Except TextError (Token × Lexer) :=
  let digits := digitsOf base (l.rest.drop 2)
  if digits.isEmpty then
    (if atStart then l else l.skip 2).fail ("invalid " ++ name ++ " literal")
  else l.finishNumber ⟨l.rest.take 2 ++ digits, false⟩

def number (l : Lexer) : Except TextError (Token × Lexer) :=
  let finish (whole rest : List Char) : Except TextError (Token × Lexer) :=
    match decimalText whole rest with
    | .ok n => l.finishNumber n
    | .error n => (l.skip n).fail "invalid float literal"
  match l.rest with
  | '0' :: mark :: _ =>
    if mark = 'x' || mark = 'X' then l.basedNumber 16 "hex" true
    else if mark = 'o' || mark = 'O' then l.basedNumber 8 "octal" false
    else if mark = 'b' || mark = 'B' then l.basedNumber 2 "binary" false
    else
      let whole := digitsOf 10 l.rest
      let rest := l.rest.drop whole.length
      let plain := match rest with
        | '.' :: _ | 'e' :: _ | 'E' :: _ => false
        | _ => true
      if plain && 1 < whole.length && whole.all Literal.isOctal && !whole.all (· = '0') then
        (l.skip whole.length).fail
          ("obsolete form of octal literal; use 0o" ++ String.ofList (whole.drop 1))
      else finish whole rest
  | '.' :: d :: _ =>
    if Number.isDecimalDigit d then finish [] l.rest
    else .ok (l.token (.symbol ".") l.advance)
  | '.' :: [] => .ok (l.token (.symbol ".") l.advance)
  | _ =>
    let whole := digitsOf 10 l.rest
    finish whole (l.rest.drop whole.length)

def word (l : Lexer) : Token × Lexer :=
  let text := String.ofList (l.rest.takeWhile isWord)
  let stop := l.skip text.length
  if keywords.contains text then l.token (.keyword text) stop
  else if illegalWords.contains text then l.token .illegal stop
  else l.token (.identifier text) stop

def charText (c : Char) : String :=
  let body := if c = '\'' then "\\'" else if c = '"' then "\"" else String.ofList (Text.Quoted.escape c)
  "'" ++ body ++ "'"

def symbol (l : Lexer) (c : Char) : Except TextError (Token × Lexer) :=
  match symbols.find? (fun s => s.toList.isPrefixOf l.rest) with
  | some s =>
    if s = "(" || s = "[" || s = "\x7b" then
      .ok (l.token (.symbol s) { l.advance with depth := l.depth + 1 })
    else if s = ")" || s = "]" || s = "\x7d" then
      if l.depth = 0 then l.fail ("unexpected " ++ charText c)
      else .ok (l.token (.symbol s) { l.advance with depth := l.depth - 1 })
    else .ok (l.token (.symbol s) (l.skip s.length))
  | none =>
    if c = '!' then l.fail "unexpected '!'"
    else l.fail ("unexpected input character " ++ charText c)

def proper (l : Lexer) (c : Char) : Except TextError (Token × Lexer) :=
  if isQuote c then string l l false false
  else if isWordStart c then
    match l.rest with
    | 'r' :: q :: rest =>
      if isQuote q then string l l.advance true false
      else if q = 'b' && rest.head?.any isQuote then string l (l.skip 2) true true
      else .ok l.word
    | 'b' :: q :: _ => if isQuote q then string l l.advance false true else .ok l.word
    | _ => .ok l.word
  else if Number.isDecimalDigit c || c = '.' then l.number
  else l.symbol c

def next : Nat → Lexer → Except TextError (Token × Lexer)
  | 0, l => .ok (l.token .endOfFile l)
  | fuel + 1, l => do
    let wasStart := l.lineStart
    let (column, spaced) := if wasStart then leading (l.rest.length + 1) 0 l else (0, l)
    let spaced := { spaced with lineStart := false }
    let blank := wasStart && (match spaced.peek with
      | some c => c = '#' || c = '\n'
      | none => true)
    let l ← if wasStart && !blank && spaced.depth = 0 then spaced.indentTo column else pure spaced
    if l.pending < 0 then return (l.token .outdent { l with pending := l.pending + 1 })
    if 0 < l.pending then return (l.token .indent { l with pending := l.pending - 1 })
    let l := skipWhile (fun c => c = ' ' || c = '\t') (l.rest.length + 1) l
    let l :=
      if l.peek = some '#' then skipWhile (· ≠ '\n') (l.rest.length + 1) l else l
    match l.peek with
    | some '\n' =>
      if 0 < l.depth || blank then next fuel { l.advance with lineStart := true }
      else return l.token .newline { l.advance with lineStart := true }
    | none =>
      if 1 < l.indents.length then
        if wasStart then
          next fuel { l with pending := 1 - (l.indents.length : Int), indents := [0] }
        else return l.token .newline { l with lineStart := true }
      else return l.token .endOfFile l
    | some '\\' =>
      if l.advance.peek = some '\n' then next fuel l.advance.advance
      else l.advance.fail "stray backslash in program"
    | some c => l.proper c

def all : Nat → Lexer → List Token × Option TextError
  | 0, _ => ([], none)
  | fuel + 1, l =>
    match l.next (l.rest.length + 2) with
    | .error e => ([], some e)
    | .ok (t, l) =>
      if t.lexeme = .endOfFile then ([t], none)
      else
        let (rest, e) := all fuel l
        (t :: rest, e)

end Lexer

def plainBreaks : List Char → List Char
  | '\r' :: '\n' :: rest => '\n' :: plainBreaks rest
  | '\r' :: rest => '\n' :: plainBreaks rest
  | c :: rest => c :: plainBreaks rest
  | [] => []

def tokens (text : String) : List Token × Option TextError :=
  Lexer.all (2 * text.length + 4) { rest := plainBreaks text.toList }

end ScriptTree.Starlark
