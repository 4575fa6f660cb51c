import ScriptTree.Number.Reader
import ScriptTree.Starlark.Token

/-!
Literals of Starlark expressions: what the bytes between the quotes stand for, and what a
numeral stands for.
-/

namespace ScriptTree.Starlark.Literal

def charOf (b : UInt8) : Char := Char.ofNat b.toNat

def simpleEscape? (c : Char) : Option UInt8 :=
  if c = 'a' then some 7
  else if c = 'b' then some 8
  else if c = 'f' then some 12
  else if c = 'n' then some 10
  else if c = 'r' then some 13
  else if c = 't' then some 9
  else if c = 'v' then some 11
  else if c = '\\' then some 92
  else if c = '\'' then some 39
  else if c = '"' then some 34
  else none

def isOctal (c : Char) : Bool := '0' ≤ c && c ≤ '7'

def upperHex (width n : Nat) : String :=
  let digits := (Nat.toDigits 16 n).map Char.toUpper
  String.ofList (List.replicate (width - digits.length) '0' ++ digits)

def octal (n : Nat) : String := String.ofList (Nat.toDigits 8 n)

def codeHint (n : Nat) : String :=
  " (use \\u" ++ upperHex 4 n ++ " for the UTF-8 encoding of U+" ++ upperHex 4 n ++ ")"

abbrev Escape := Except ByteString (ByteString × ByteString)

def octalEscape (isBytes : Bool) (s : ByteString) : Escape :=
  let digits := ((s.take 3).map charOf).takeWhile isOctal
  let n := Number.valueOf 8 digits
  if !isBytes && 127 < n then .error ("non-ASCII octal escape \\" ++ octal n ++ codeHint n)
  else if 256 ≤ n then .error ("invalid escape sequence \\" ++ octal n)
  else .ok ([UInt8.ofNat n], s.drop digits.length)

def hex? (digits : ByteString) : Option Nat :=
  let cs := digits.map charOf
  if cs.all (Number.isDigitOf 16) then some (Number.valueOf 16 cs) else none

/-- A hexadecimal escape of exactly two digits; `s` starts with the `x`. -/
def hexEscape (isBytes : Bool) (s : ByteString) : Escape :=
  if s.length < 3 then .error ("truncated escape sequence \\" ++ s)
  else
    match hex? ((s.drop 1).take 2) with
    | none => .error ("invalid escape sequence \\" ++ s.take 3)
    | some n =>
      if !isBytes && 127 < n then
        .error ("non-ASCII hex escape \\" ++ s.take 3 ++ codeHint n)
      else .ok ([UInt8.ofNat n], s.drop 3)

/-- An escape by code point; `s` starts with the `u` or the `U`. -/
def codeEscape (width : Nat) (s : ByteString) : Escape :=
  let written := s.take (width + 1)
  if s.length < width + 1 then .error ("truncated escape sequence \\" ++ s)
  else
    match hex? ((s.drop 1).take width) with
    | none => .error ("invalid escape sequence \\" ++ written)
    | some n =>
      if 0x10FFFF < n then
        .error ("code point out of range: \\" ++ written ++ " (max \\U" ++
          String.ofList (Text.Quoted.hex 8 n) ++ ")")
      else if 0xD800 ≤ n && n < 0xE000 then
        .error ("invalid Unicode code point U+" ++ upperHex 4 n)
      else .ok (Text.ofChars [Char.ofNat n], s.drop (width + 1))

def escape (isBytes : Bool) (s : ByteString) : Escape :=
  match s with
  | [] => .error "truncated escape sequence \\"
  | b :: rest =>
    let c := charOf b
    match simpleEscape? c with
    | some b => .ok ([b], rest)
    | none =>
      if c = '\n' then .ok ([], rest)
      else if isOctal c then octalEscape isBytes s
      else if c = 'x' then hexEscape isBytes s
      else if c = 'u' then codeEscape 4 s
      else if c = 'U' then codeEscape 8 s
      else .error ("invalid escape sequence \\" ++ String.ofList [c])

def contents (isBytes : Bool) : Nat → ByteString → Except ByteString ByteString
  | 0, _ => .ok []
  | _, [] => .ok []
  | fuel + 1, b :: rest =>
    if b = 92 then do
      let (bytes, rest) ← escape isBytes rest
      let tail ← contents isBytes fuel rest
      return bytes ++ tail
    else do
      let tail ← contents isBytes fuel rest
      return b :: tail

/-- The value of the text between the quotes of a literal; a raw one has no escapes. -/
def value (raw isBytes : Bool) (body : List Char) : Except ByteString ByteString :=
  let bytes := Text.ofChars body
  if raw then .ok bytes else contents isBytes (bytes.length + 1) bytes

/-! Numerals. -/

/-- Integers with a mark for base eight or two have to fit into a word. -/
def small? (n : Nat) : Option Int := if n < Nat.pow 2 63 then some n else none

def int? (cs : List Char) : Option Int :=
  match cs with
  | '0' :: mark :: rest =>
    if mark = 'x' || mark = 'X' then some (Number.valueOf 16 rest)
    else if mark = 'o' || mark = 'O' then small? (Number.valueOf 8 rest)
    else if mark = 'b' || mark = 'B' then small? (Number.valueOf 2 rest)
    else if (mark :: rest).all (· = '0') then some 0
    else none
  | _ => some (Number.valueOf 10 cs)

end ScriptTree.Starlark.Literal
