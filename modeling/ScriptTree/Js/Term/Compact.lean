import ScriptTree.Js.Term
import ScriptTree.Js.Token
import ScriptTree.Number.Layout

/-!
Source text with no blank that could be left out.
-/

namespace ScriptTree.Js

/-- The shorter of the two notations of a number; positional notation on a tie. -/
def compactNumber (x : Number) : String :=
  x.layOut ⟨"NaN", "1/0", "-1/0"⟩ fun d =>
    let digits := String.ofList (Nat.toDigits 10 d.digits)
    let positional := match d.positional.toList with
      | '0' :: '.' :: rest => String.ofList ('.' :: rest)
      | text => String.ofList text
    let scientific := digits ++ "e" ++ (if d.exponent < 0 then "-" else "") ++
      Nat.repr d.exponent.natAbs
    if scientific.length < positional.length then scientific else positional

/-- Joins two texts, with a blank between them where they would run together. A number that
starts with its point is kept apart as well. -/
def joinTokens (left right : String) : String :=
  match left.toList.getLast?, right.toList.head? with
  | some a, some b =>
    let words := Token.continuesWord a && (Token.continuesWord b || b = '.')
    let signs := a = b && (a = '+' || a = '-')
    if words || signs then left ++ " " ++ right else left ++ right
  | _, _ => left ++ right

def wrap (needed : Bool) (text : String) : String := if needed then "(" ++ text ++ ")" else text

def quotientLevel : Nat := 10

def prefixLevel : Nat := 12

def escapeNameChar (c : Char) : List Char :=
  let digits (n : Nat) : List Char := (Nat.toDigits 16 n).map Char.toUpper
  if c.toNat < 0x80 then [c]
  else if c.toNat < 0x10000 then
    '\\' :: 'u' :: (List.replicate (4 - (digits c.toNat).length) '0' ++ digits c.toNat)
  else '\\' :: 'u' :: Char.ofNat 0x7b :: digits c.toNat ++ [Char.ofNat 0x7d]

def compactName (names : List (Nat × String)) : Name → String
  | .text name => String.ofList (name.toList.flatMap escapeNameChar)
  | .slot i => (names.lookup i).getD ""

namespace Term

mutual

/-- The text of a term where only terms that bind at least as tightly as `level` stand
without parentheses. -/
def compact (names : List (Nat × String)) (level : Nat) : Term → String
  | boolean b => wrap (prefixLevel < level) (if b then "!0" else "!1")
  | number x =>
    let own := if x.isInfinite then quotientLevel else prefixLevel
    wrap (!x.isNaN && (x.signbit || x.isInfinite) && own < level) (compactNumber x)
  | null => "null"
  | self => "this"
  | undefined => wrap (prefixLevel < level) "void 0"
  | reference n => compactName names n
  | unary op e => wrap (prefixLevel < level) (joinTokens op (compact names prefixLevel e))
  | binary op a b =>
    wrap (op.level < level)
      (joinTokens (joinTokens (compact names op.level a) op.symbol) (compact names (op.level + 1) b))
  | assign a b => wrap (0 < level) (compact names prefixLevel a ++ "=" ++ compact names 0 b)
  | member e n =>
    compact names (prefixLevel + 1) e ++ "." ++ compactName names (.text n)
  | call f values =>
    compact names (prefixLevel + 1) f ++ "(" ++ String.intercalate "," (compactAll names values) ++
      ")"
  | function grouped own parameters body =>
    wrap grouped
      ((match own with
        | some n => "function " ++ compactName names n
        | none => "function") ++
        "(" ++ String.intercalate "," (parameters.map (compactName names)) ++ ")\x7b" ++
        compactBody names body ++ "\x7d")

def compactAll (names : List (Nat × String)) : List Term → List String
  | [] => []
  | e :: rest => compact names 0 e :: compactAll names rest

def compactBody (names : List (Nat × String)) : List Statement → String
  | [] => ""
  | .declare n parameters body :: rest =>
    "function " ++ compactName names n ++ "(" ++
      String.intercalate "," (parameters.map (compactName names)) ++ ")\x7b" ++
      compactBody names body ++ "\x7d" ++ compactBody names rest
  | .give value :: rest =>
    (match value with
      | some e => joinTokens "return" (compact names 0 e)
      | none => "return") ++ afterSemicolon names rest
  | .evaluate e :: rest => compact names 0 e ++ afterSemicolon names rest

def afterSemicolon (names : List (Nat × String)) : List Statement → String
  | [] => ""
  | rest => ";" ++ compactBody names rest

end

end Term

namespace Code

def compact (names : List (Nat × String)) (c : Code) : String :=
  match c.value with
  | some e => e.compact names 0 ++ Term.afterSemicolon names c.statements
  | none => Term.compactBody names c.statements

end Code

end ScriptTree.Js
