import ScriptTree.Starlark.Value
import ScriptTree.Text.ByteString.Search

/-!
Values as text. A list or a dictionary that contains itself is cut short there.
-/

namespace ScriptTree.Starlark.Value

/-- A double with enough digits to read it back, and a point or an exponent. -/
def floatText (x : Number) : String :=
  if x.isNaN then "nan"
  else if x.isInfinite then (if x.signbit then "-inf" else "+inf")
  else
    let s := x.general
    if s.toList.contains '.' || s.toList.contains 'e' then s else s ++ ".0"

def viewSuffix : StringView → String
  | .elems => ".elems()"
  | .elemOrds => ".elem_ords()"
  | .codepoints => ".codepoints()"
  | .codepointOrds => ".codepoint_ords()"

def commas (parts : List ByteString) : ByteString := ByteString.join ", " parts

mutual

/-- The text of a value, where the texts of lists and dictionaries are given. -/
def displayWith (list dict : Nat → ByteString) : Value → ByteString
  | none => "None"
  | bool b => if b then "True" else "False"
  | int n => Text.integer n
  | float x => floatText x
  | string b => b.quote
  | bytes b => "b" ++ b.quote
  | .list a => list a
  | tuple items =>
    "(" ++ commas (displayAllWith list dict items) ++ (if items.length = 1 then ",)" else ")")
  | .dict a => dict a
  | range r => r.text
  | view kind b => b.quote ++ viewSuffix kind
  | byteView b => "b" ++ b.quote ++ ".elems()"
  | builtin name => "<built-in function " ++ name ++ ">"
  | method _ name receiver =>
    "<built-in method " ++ name ++ " of " ++ receiver.typeName ++ " value>"
  | function _ _ _ _ => "<function lambda>"

def displayAllWith (list dict : Nat → ByteString) : List Value → List ByteString
  | [] => []
  | v :: rest => displayWith list dict v :: displayAllWith list dict rest

end

/-- What a value is inside of. -/
structure Path where
  lists : List Nat := []
  dicts : List Nat := []

/-- The text of a value inside others; there are fewer than `fuel` lists and dictionaries
around it. -/
def displayIn (s : Store) : Nat → Path → Value → ByteString
  | 0, _, v => displayWith (fun _ => "[...]") (fun _ => "\x7b...\x7d") v
  | fuel + 1, path, v =>
    displayWith
      (fun a =>
        if path.lists.contains a then "[...]"
        else
          let inner := displayIn s fuel { path with lists := a :: path.lists }
          "[" ++ commas ((s.items a).toList.map inner) ++ "]")
      (fun a =>
        if path.dicts.contains a then "\x7b...\x7d"
        else
          let inner := displayIn s fuel { path with dicts := a :: path.dicts }
          let entry (e : Entry) := displayIn s fuel path e.key ++ ": " ++ inner e.value
          "\x7b" ++ commas ((s.entries a).toList.map entry) ++ "\x7d")
      v

def display (s : Store) (v : Value) : ByteString :=
  displayIn s (s.lists.size + s.dicts.size + 1) {} v

def plain (s : Store) : Value → ByteString
  | string b => b
  | v => v.display s

end ScriptTree.Starlark.Value
