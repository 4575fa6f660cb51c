import ScriptTree.Text.Printable

/-!
Quoted text: double quotes around a text in which every character that is not
shown as itself is escaped.
-/

namespace ScriptTree.Text.Quoted

def hexDigit (n : Nat) : Char := (Nat.digitChar (n % 16))

def hex : Nat → Nat → List Char
  | 0, _ => []
  | width + 1, n => hex width (n / 16) ++ [hexDigit n]

def escape (c : Char) : List Char :=
  if c = '"' then ['\\', '"']
  else if c = '\\' then ['\\', '\\']
  else if Printable.isPrintable c then [c]
  else if c.toNat = 7 then ['\\', 'a']
  else if c.toNat = 8 then ['\\', 'b']
  else if c.toNat = 12 then ['\\', 'f']
  else if c = '\n' then ['\\', 'n']
  else if c = '\r' then ['\\', 'r']
  else if c = '\t' then ['\\', 't']
  else if c.toNat = 11 then ['\\', 'v']
  else if c.toNat < 0x20 || c.toNat = 0x7f then '\\' :: 'x' :: hex 2 c.toNat
  else if c.toNat < 0x10000 then '\\' :: 'u' :: hex 4 c.toNat
  else '\\' :: 'U' :: hex 8 c.toNat

def encode (s : String) : String :=
  String.ofList ('"' :: s.toList.flatMap escape ++ ['"'])

def encodeChar (c : Char) : String :=
  let inner := if c.toNat = 39 then ['\\', c] else if c = '"' then [c] else escape c
  "'" ++ String.ofList inner ++ "'"

end ScriptTree.Text.Quoted

namespace ScriptTree.Text

def quote (s : String) : String := Quoted.encode s

def quoteChar (c : Char) : String := Quoted.encodeChar c

def integer (n : Int) : String :=
  if n < 0 then "-" ++ Nat.repr n.natAbs else Nat.repr n.natAbs

end ScriptTree.Text
