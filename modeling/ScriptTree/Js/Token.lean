import ScriptTree.Number.Reader
import ScriptTree.Text.Bytes
import ScriptTree.Text.IdentifierChar
import ScriptTree.Text.Lines

/-!
The tokens of source text, each with its place.
-/

namespace ScriptTree.Js

inductive Lexeme where
  /-- An identifier or a keyword. -/
  | word (text : String)
  | number (value : Number)
  | symbol (text : String)
  | finish
  /-- A character that no token can start with here. -/
  | stray
deriving DecidableEq, Inhabited

/-- A line from one, and the number of bytes before a place on it. -/
structure Position where
  line : Nat
  column : Nat
deriving DecidableEq, Inhabited

structure Token where
  lexeme : Lexeme
  text : String
  position : Position
  afterBreak : Bool
deriving DecidableEq, Inhabited

namespace Token

def keywords : List String := [
  "break", "case", "catch", "class", "const", "continue", "debugger", "default", "delete", "do",
  "else", "enum", "export", "extends", "false", "finally", "for", "function", "if", "import", "in",
  "instanceof", "new", "null", "return", "super", "switch", "this", "throw", "true", "try", "typeof",
  "var", "void", "while", "with"]

def symbols : List String := [
  "===", "!==", "...", "&&", "||", "==", "!=", "<=", ">=", "=>", "++", "--", "**", "<<", ">>", "??",
  "(", ")", "\x7b", "\x7d", "[", "]", ";", ",", "<", ">", "+", "-", "*", "/", "%", "&", "|", "^",
  "!", "~", "?", ":", ".", "="]

def isKeyword (text : String) : Bool := keywords.contains text

def startsWord (c : Char) : Bool := Text.isIdentifierStart c

def continuesWord (c : Char) : Bool := Text.isIdentifierPart c

def showStray (t : Token) : String :=
  match t.text.toList with
  | [c] =>
    if c = '"' then "'\"'"
    else if c.toNat < 0x20 then
      let digits := (Nat.toDigits 16 c.toNat).map Char.toUpper
      "\"\\x" ++ String.ofList (List.replicate (2 - digits.length) '0' ++ digits) ++ "\""
    else if 0x80 ≤ c.toNat then
      "\"\\u\x7b" ++ String.ofList (Nat.toDigits 16 c.toNat) ++ "\x7d\""
    else "\"" ++ t.text ++ "\""
  | _ => "\"" ++ t.text ++ "\""

def step (p : Position) (c : Char) : Position :=
  if c = '\n' then ⟨p.line + 1, 0⟩ else ⟨p.line, p.column + c.utf8Size⟩

def numeral (cs : List Char) : List Char :=
  let whole := cs.takeWhile Char.isDigit
  let rest := cs.dropWhile Char.isDigit
  let fraction := match rest with
    | '.' :: more => '.' :: more.takeWhile Char.isDigit
    | _ => []
  let exponent := match rest.drop fraction.length with
    | e :: sign :: more =>
      if e = 'e' || e = 'E' then
        if sign = '+' || sign = '-' then
          if (more.takeWhile Char.isDigit).isEmpty then []
          else e :: sign :: more.takeWhile Char.isDigit
        else if sign.isDigit then e :: (sign :: more).takeWhile Char.isDigit
        else []
      else []
    | _ => []
  whole ++ fraction ++ exponent

def first (cs : List Char) : Lexeme × List Char :=
  match cs with
  | [] => (.finish, [])
  | c :: rest =>
    if startsWord c then
      let text := c :: rest.takeWhile continuesWord
      (.word (String.ofList text), text)
    else if c.isDigit || (c = '.' && (rest.head?.map Char.isDigit).getD false) then
      let text := numeral cs
      let value := (Number.read? (String.ofList text)).map (·.value)
      (.number (value.getD .zero), text)
    else
      match symbols.find? (fun s => s.toList.isPrefixOf cs) with
      | some s => (.symbol s, s.toList)
      | none => (.stray, [c])

/-- All tokens of a text; a number may not touch a word. -/
def scan : Nat → Position → Bool → List Char → List Token
  | 0, p, afterBreak, _ => [⟨.finish, "", p, afterBreak⟩]
  | fuel + 1, p, afterBreak, cs =>
    let blanks := cs.takeWhile Text.isBlank
    let broken := afterBreak || blanks.contains '\n'
    let p := blanks.foldl step p
    let (lexeme, text) := first (cs.drop blanks.length)
    let token : Token := ⟨lexeme, String.ofList text, p, broken⟩
    let rest := cs.drop (blanks.length + text.length)
    let next := text.foldl step p
    match lexeme, rest with
    | .finish, _ | .stray, _ => [token]
    | .number _, c :: _ =>
      if startsWord c then [⟨.stray, String.ofList [c], next, false⟩]
      else token :: scan fuel next false rest
    | _, _ => token :: scan fuel next false rest

def ofText (column : Nat) (text : String) : List Token :=
  scan (text.length + 1) ⟨1, column⟩ false text.toList

end Token

end ScriptTree.Js
