import ScriptTree.Text.ByteString
import ScriptTree.Yaml.Token
import ScriptTree.Yaml.Token.Scalar

/-!
From characters to tokens. Indentation opens and closes block collections; a scalar,
an alias or a flow collection that turns out to be followed by a colon is marked as a
key where it started. Tokens are read as they are asked for, and a little ahead.
-/

namespace ScriptTree.Yaml

structure PossibleKey where
  /-- Number of tokens before it. -/
  place : Nat
  index : Nat
  line : Nat
  column : Nat
  /-- Whether only a key can stand there. -/
  required : Bool := false
  /-- Whether a colon may still make it a key. -/
  possible : Bool := false
  /-- Whether its first token has to wait until that is decided. -/
  awaited : Bool := false

structure Lexer where
  cursor : Cursor
  tokens : Array Token := #[]
  taken : Nat := 0
  indent : Int := -1
  /-- Indentations of the enclosing block collections. -/
  outer : List Int := []
  /-- Number of enclosing flow collections. -/
  depth : Nat := 0
  /-- The possible key of each enclosing flow collection, innermost first, and of the block
  context around them. -/
  keys : List PossibleKey := [⟨0, 0, 0, 0, false, false, false⟩]
  keyAllowed : Bool := true

abbrev Lexing := StateT Lexer (Except Fault)

namespace Lexer

def start (s : Source) : Lexer := { cursor := .start s }

def inFlow (l : Lexer) : Bool := 0 < l.depth

def depthLimit : Nat := 10000

def tooDeep : String := "exceeded max depth of " ++ Nat.repr depthLimit

/-- Puts a token after `place` others, or last if those have been taken. -/
def insert (l : Lexer) (place : Nat) (t : Token) : Lexer :=
  { l with tokens := if place < l.taken then l.tokens.push t else l.tokens.insertIdxIfInBounds place t }

/-- The key that the next token may start, if it has to wait for that. -/
def awaitedKey? (l : Lexer) : Option PossibleKey :=
  l.keys.find? fun key => key.possible && key.awaited && key.place = l.taken

/-- Whether a key that started there could end here: on the same line and not too far. -/
def inReach (l : Lexer) (key : PossibleKey) : Bool :=
  key.line = l.cursor.line && l.cursor.index ≤ key.index + 1024

def dropKey (l : Lexer) (place : Nat) : Lexer :=
  { l with
    keys := l.keys.map fun key => if key.place = place then { key with possible := false } else key }

end Lexer

namespace Lexing

open Scan

def scan (s : Scan α) : Lexing α := do
  let l ← get
  let (a, c) ← (s.run l.cursor : Except Fault (α × Cursor))
  set { l with cursor := c }
  return a

def cursor : Lexing Cursor := return (← get).cursor

def fail (start : Nat) (problem : String) : Lexing α := scan (Scan.fail start problem)

def push (lexeme : Lexeme) (line : Nat) : Lexing Unit :=
  modify fun l => { l with tokens := l.tokens.push ⟨lexeme, line⟩ }

def mark (lexeme : Lexeme) (n : Nat) : Lexing Unit := do
  let line := (← cursor).line
  scan (skipMany n)
  push lexeme line

def allowKey (allowed : Bool) : Lexing Unit := modify fun l => { l with keyAllowed := allowed }

/-! Keys. -/

def missingColon (key : PossibleKey) : Lexing α := fail key.line "could not find expected ':'"

def setKey (key : PossibleKey) : Lexing Unit :=
  modify fun l => { l with keys := key :: l.keys.drop 1 }

def removeKey : Lexing Unit := do
  match (← get).keys with
  | key :: _ =>
    if key.possible then
      if key.required then missingColon key
      setKey { key with possible := false }
  | [] => pure ()

def saveKey : Lexing Unit := do
  let l ← get
  if l.keyAllowed then
    let c := l.cursor
    removeKey
    setKey ⟨l.tokens.size, c.index, c.line, c.column,
      !l.inFlow && l.indent = (c.column : Int), true, true⟩

/-- The possible key of the innermost collection, if it can end here. -/
def validKey? : Lexing (Option PossibleKey) := do
  let l ← get
  match l.keys with
  | key :: _ =>
    if !key.possible then return none
    else if l.inReach key then return some key
    else if key.required then missingColon key
    else return none
  | [] => return none

def enterFlow : Lexing Unit := do
  let l ← get
  let c := l.cursor
  set { l with
    keys := ⟨l.tokens.size, c.index, c.line, c.column, false, false, false⟩ :: l.keys
    depth := l.depth + 1 }
  if Lexer.depthLimit ≤ l.depth then fail c.line Lexer.tooDeep

/-- Leaves a flow collection. A token at which it started no longer waits for what follows
if the collection held no key. -/
def leaveFlow : Lexing Unit :=
  modify fun l =>
    match l.keys with
    | inner :: outer :: keys =>
      { l with
        keys := { outer with awaited := outer.awaited && outer.place ≠ inner.place } :: keys
        depth := l.depth - 1 }
    | _ => l

/-! Indentation. -/

def rollIndent (column : Nat) (place : Nat) (lexeme : Lexeme) (line : Nat) : Lexing Unit := do
  let l ← get
  if !l.inFlow && l.indent < (column : Int) then
    set { l.insert place ⟨lexeme, line⟩ with outer := l.indent :: l.outer, indent := column }
    if Lexer.depthLimit ≤ l.outer.length then
      fail ((l.keys.head?.map (·.line)).getD 0) Lexer.tooDeep

/-- The block collections that are indented further than a column: their number, and what
is left around them. -/
def closeBlocks (column : Int) : List Int → Int → Nat × Int × List Int
  | [], indent => (0, indent, [])
  | before :: outer, indent =>
    if column < indent then
      let (n, indent, outer) := closeBlocks column outer before
      (n + 1, indent, outer)
    else (0, indent, before :: outer)

def unrollIndent (column : Int) (line : Nat) : Lexing Unit :=
  modify fun l =>
    if l.inFlow then l
    else
      let (n, indent, outer) := closeBlocks column l.outer l.indent
      { l with
        indent := indent
        outer := outer
        tokens := l.tokens ++ Array.replicate n ⟨.blockEnd, line⟩ }

/-! Space between tokens. -/

/-- Skips blanks, comments and line breaks. A tab may not stand where a key may
start. -/
def skipSpace : Nat → Lexing Unit
  | 0 => pure ()
  | fuel + 1 => do
    scan (need 1)
    let l ← get
    let c := l.cursor
    let tabs := l.inFlow || !l.keyAllowed
    scan do
      if c.column = 0 && c.marked then skip
      skipWhile (fun x => x = ' ' || (tabs && x = '\t'))
      let c ← get
      if c.looksAt 0 '#' then skipComments (c.size + 1) c.index
    if (← cursor).breakAt 0 then
      scan skipBreak
      if !l.inFlow then allowKey true
      skipSpace fuel

/-! Directives, anchors and tags. -/

def versionNumber (start : Nat) : Scan Nat := do
  let digits ← Scan.takeWhile Number.isDecimalDigit
  if 2 < digits.length then Scan.fail start "found extremely long version number"
  else if digits.isEmpty then Scan.fail start "did not find expected version number"
  else return Number.valueOf 10 digits

def tagHandle (start : Nat) (directive : Bool) : Scan (List Char) := do
  need 1
  if !(← get).looksAt 0 '!' then Scan.fail start "did not find expected '!'"
  skip
  let word ← Scan.takeWhile isWordChar
  if (← get).looksAt 0 '!' then
    skip
    return '!' :: word ++ ['!']
  else if directive && !word.isEmpty then Scan.fail start "did not find expected '!'"
  else return '!' :: word

def isUriChar (x : Char) : Bool :=
  isWordChar x ||
    [';', '/', '?', ':', '@', '&', '=', '+', '$', '.', '!', '~', '*', '\'', '(', ')', ',', '[',
      ']'].contains x

def uriByte (start : Nat) : Scan UInt8 := do
  need 3
  let c ← get
  let digits := (c.rest.drop 1).take 2
  if !c.looksAt 0 '%' || digits.length < 2 || !digits.all (Number.isDigitOf 16) then
    Scan.fail start "did not find URI escaped octet"
  skipMany 3
  return UInt8.ofNat (Number.valueOf 16 digits)

def uriBytes (start : Nat) : Nat → Scan ByteString
  | 0 => return []
  | n + 1 => do
    let c ← get
    let b ← uriByte start
    if !Text.isContinuation b then
      set c
      Scan.fail start "found an incorrect trailing UTF-8 octet"
    return b :: (← uriBytes start n)

def uriEscape (start : Nat) : Scan ByteString := do
  let b ← uriByte start
  match Encoding.width8? b with
  | none => Scan.fail start "found an incorrect leading UTF-8 octet"
  | some width => return b :: (← uriBytes start (width - 1))

/-- The characters of a tag after others, with escapes by code read. -/
def tagUri (start : Nat) : Nat → ByteString → Scan ByteString
  | 0, text => return text
  | fuel + 1, text => do
    need 1
    match (← get).rest.head? with
    | some x =>
      if x = '%' then tagUri start fuel (text ++ (← uriEscape start))
      else if isUriChar x then
        skip
        tagUri start fuel (text ++ Text.ofChars [x])
      else return text
    | none => return text

/-- The rest of a tag that starts with a handle, which may not be empty both. -/
def requireTagUri (start : Nat) (handle : List Char) : Scan String := do
  let text ← tagUri start ((← get).size + 1) []
  if handle.isEmpty && text.isEmpty then Scan.fail start "did not find expected tag URI"
  return String.ofList (handle.drop 1) ++ text.text

def versionDirective (start : Nat) : Scan Lexeme := do
  skipWhile isGap
  let major ← versionNumber start
  if !(← get).looksAt 0 '.' then
    Scan.fail start "did not find expected digit or '.' character"
  skip
  let minor ← versionNumber start
  return .versionDirective major minor

def tagDirective (start : Nat) : Scan Lexeme := do
  skipWhile isGap
  let handle ← tagHandle start true
  need 1
  if !(← get).gapAt 0 then Scan.fail start "did not find expected whitespace"
  skipWhile isGap
  let target ← requireTagUri start []
  need 1
  if !(← get).endsWord 0 then
    Scan.fail start "did not find expected whitespace or line break"
  return .tagDirective (String.ofList handle) target

def directive : Scan Lexeme := do
  let start := (← get).line
  skip
  let name ← Scan.takeWhile isWordChar
  if name.isEmpty then Scan.fail start "could not find expected directive name"
  if !(← get).endsWord 0 then Scan.fail start "found unexpected non-alphabetical character"
  let lexeme ←
    if name = "YAML".toList then versionDirective start
    else if name = "TAG".toList then tagDirective start
    else Scan.fail start "found unknown directive name"
  skipWhile isGap
  if (← get).looksAt 0 '#' then skipWhile (fun x => !isBreak x)
  if !(← get).endsLine then Scan.fail start "did not find expected comment or line break"
  if (← get).breakAt 0 then skipBreak
  return lexeme

def endsAnchor (c : Cursor) : Bool :=
  c.endsWord 0 ||
    c.rest.head?.any (fun x =>
      ['?', ':', ',', ']', '\x7d', '%', '@', Char.ofNat 0x60].contains x)

def anchorName : Scan String := do
  let start := (← get).line
  skip
  let word ← Scan.takeWhile isWordChar
  if word.isEmpty || !endsAnchor (← get) then
    Scan.fail start "did not find expected alphabetic or numeric character"
  return String.ofList word

def tagToken : Scan Lexeme := do
  let start := (← get).line
  need 2
  let (handle, rest) ←
    if (← get).looksAt 1 '<' then do
      skipMany 2
      let text ← requireTagUri start []
      if !(← get).looksAt 0 '>' then Scan.fail start "did not find the expected '>'"
      skip
      pure ("", text)
    else do
      let handle ← tagHandle start false
      if 1 < handle.length && handle.getLast? = some '!' then do
        let text ← requireTagUri start []
        pure (String.ofList handle, text)
      else do
        let text ← requireTagUri start handle
        pure (if text = "" then ("", "!") else ("!", text))
  need 1
  if !(← get).endsWord 0 then
    Scan.fail start "did not find expected whitespace or line break"
  return .tag handle rest

/-! Tokens. -/

def isIndicator (x : Char) : Bool :=
  ['-', '?', ':', ',', '[', ']', '\x7b', '\x7d', '#', '&', '*', '!', '|', '>', '\'', '"', '%',
    '@', Char.ofNat 0x60].contains x

def startsPlain (l : Lexer) (x : Char) : Bool :=
  !(isGap x || isBreak x || isIndicator x) ||
    (x = '-' && !l.cursor.gapAt 1) ||
    (!l.inFlow && (x = '?' || x = ':') && !l.cursor.endsWord 1)

def fetchStreamEnd : Lexing Unit := do
  modify fun l =>
    if l.cursor.column = 0 then l
    else { l with cursor := { l.cursor with column := 0, line := l.cursor.line + 1 } }
  let line := (← cursor).line
  unrollIndent (-1) line
  removeKey
  allowKey false
  push .streamEnd line

def fetchDirective : Lexing Unit := do
  let line := (← cursor).line
  unrollIndent (-1) line
  removeKey
  allowKey false
  let lexeme ← scan directive
  push lexeme line

def fetchMarker (lexeme : Lexeme) : Lexing Unit := do
  unrollIndent (-1) (← cursor).line
  removeKey
  allowKey false
  mark lexeme 3

def fetchFlowStart (lexeme : Lexeme) : Lexing Unit := do
  saveKey
  enterFlow
  allowKey true
  mark lexeme 1

def fetchFlowEnd (lexeme : Lexeme) : Lexing Unit := do
  removeKey
  leaveFlow
  allowKey false
  mark lexeme 1

def fetchFlowEntry : Lexing Unit := do
  removeKey
  allowKey true
  mark .flowEntry 1

def openBlock (lexeme : Lexeme) (complaint : String) : Lexing Unit := do
  let l ← get
  let c := l.cursor
  if !l.inFlow && !l.keyAllowed then fail c.line complaint
  rollIndent c.column l.tokens.size lexeme c.line

def fetchBlockEntry : Lexing Unit := do
  openBlock .blockSequenceStart "block sequence entries are not allowed in this context"
  removeKey
  allowKey true
  mark .blockEntry 1

def fetchKey : Lexing Unit := do
  openBlock .blockMappingStart "mapping keys are not allowed in this context"
  removeKey
  allowKey (!(← get).inFlow)
  mark .key 1

def fetchValue : Lexing Unit := do
  match ← validKey? with
  | some key =>
    modify (·.insert key.place ⟨.key, key.line⟩)
    rollIndent key.column key.place .blockMappingStart key.line
    setKey { key with possible := false }
    allowKey false
  | none =>
    modify fun l =>
      { l with keys := l.keys.modify 0 fun key => { key with possible := false } }
    openBlock .blockMappingStart "mapping values are not allowed in this context"
    allowKey (!(← get).inFlow)
  mark .value 1

def fetchWord (read : Scan Lexeme) : Lexing Unit := do
  saveKey
  allowKey false
  let line := (← cursor).line
  let lexeme ← scan read
  push lexeme line

def fetchBlockScalar (literal : Bool) : Lexing Unit := do
  removeKey
  allowKey true
  let l ← get
  let text ← scan (blockScalar literal l.indent)
  push (.scalar (String.ofList text) .block) l.cursor.line

def fetchPlain : Lexing Unit := do
  saveKey
  allowKey false
  let l ← get
  let p ← scan (plainScalar l.inFlow (l.indent + 1))
  push (.scalar (String.ofList p.text) .plain) l.cursor.line
  if p.broken then allowKey true

def fetchQuoted (single : Bool) : Lexing Unit :=
  fetchWord do
    let text ← quotedScalar single
    return .scalar (String.ofList text) (if single then .singleQuoted else .doubleQuoted)

def fetchAt (x : Char) : Lexing Unit := do
  let l ← get
  let c := l.cursor
  if x = '[' then fetchFlowStart .flowSequenceStart
  else if x = '\x7b' then fetchFlowStart .flowMappingStart
  else if x = ']' then fetchFlowEnd .flowSequenceEnd
  else if x = '\x7d' then fetchFlowEnd .flowMappingEnd
  else if x = ',' then fetchFlowEntry
  else if x = '-' && c.endsWord 1 then fetchBlockEntry
  else if x = '?' && (l.inFlow || c.endsWord 1) then fetchKey
  else if x = ':' && (l.inFlow || c.endsWord 1) then fetchValue
  else if x = '*' then fetchWord (.link <$> anchorName)
  else if x = '&' then fetchWord (.anchor <$> anchorName)
  else if x = '!' then fetchWord tagToken
  else if x = '|' && !l.inFlow then fetchBlockScalar true
  else if x = '>' && !l.inFlow then fetchBlockScalar false
  else if x = '\'' then fetchQuoted true
  else if x = '"' then fetchQuoted false
  else if startsPlain l x then fetchPlain
  else fail c.line "found character that cannot start any token"

/-- Reads the next token, with the tokens that indentation implies before it. A comment
after it belongs to it, except after the mark of an item. -/
def fetch : Lexing Unit := do
  scan (need 1)
  let before ← cursor
  skipSpace (before.size + 1)
  unrollIndent (← cursor).column before.line
  scan (need 4)
  let c ← cursor
  match c.rest with
  | [] => fetchStreamEnd
  | x :: _ =>
    if c.column = 0 && x = '%' then fetchDirective
    else if c.marker '-' then fetchMarker .documentStart
    else if c.marker '.' then fetchMarker .documentEnd
    else
      fetchAt x
      if (← get).tokens.back?.all (·.lexeme ≠ .blockEntry) then scan skipLineComment

/-- Reads on until the next token is known and two more are there. -/
def fetchMore : Nat → Lexing Unit
  | 0 => pure ()
  | fuel + 1 => do
    let l ← get
    if l.taken + 2 < l.tokens.size then
      match l.awaitedKey? with
      | none => return ()
      | some key =>
        if !l.inReach key then
          if key.required then missingColon key
          set (l.dropKey key.place)
          return ()
    fetch
    fetchMore fuel

def peek : Lexing Token := do
  fetchMore ((← cursor).size + 4)
  let l ← get
  return l.tokens[l.taken]?.getD ⟨.streamEnd, 0⟩

def advance : Lexing Unit := modify fun l => { l with taken := l.taken + 1 }

end Lexing

end ScriptTree.Yaml
