import ScriptTree.Js.Term.Simplify
import ScriptTree.Js.Token

/-!
Short names. Names in force at the same time have different places; the place that is used
most often has the shortest name. Letters that occur often in the text come first.
-/

namespace ScriptTree.Js.Rename

/-- Characters of names in their first order; digits stand behind the letters. -/
def alphabet : List Char :=
  "abcdefghijklmnopqrstuvwxyzABCDEFGHIJKLMNOPQRSTUVWXYZ0123456789_$".toList

/-- How often a character occurs in a text, without the names that will go. -/
def frequency (text : List Char) (u : Usage) (c : Char) : Int :=
  let gone := u.uses.map (·.2) ++ u.outer
  (text.count c : Int) - (gone.map fun n => (n.toList.count c : Int)).foldl (· + ·) 0

def ordered (text : String) (u : Usage) : List Char :=
  let cs := text.toList
  let counted := alphabet.map fun c => (c, frequency cs u c)
  (counted.mergeSort fun a b => b.2 ≤ a.2).map (·.1)

def rest (tail : Array Char) : Nat → Nat → List Char
  | 0, _ => []
  | _, 0 => []
  | fuel + 1, n + 1 => tail.getD (n % tail.size) 'a' :: rest tail fuel (n / tail.size)

def nameOf (order : List Char) (n : Nat) : String :=
  let head := (order.filter (!·.isDigit)).toArray
  String.ofList (head.getD (n % head.size) 'a' :: rest order.toArray n (n / head.size))

def strictWords : List String :=
  ["implements", "interface", "let", "package", "private", "protected", "public", "static", "yield"]

def weight (u : Usage) (place : Nat) : Nat :=
  u.declared.count place + (u.uses.map (·.1)).count place

def places (u : Usage) : List Nat :=
  let all := List.range ((u.declared.foldl (fun n place => max n (place + 1)) 0))
  all.mergeSort fun a b => weight u b ≤ weight u a

/-- Gives names to places in turn, from the `n`-th on; `fuel` is more than there are names
and places. -/
def assign (order : List Char) (reserved : List String) :
    Nat → Nat → List Nat → List (Nat × String)
  | 0, _, _ => []
  | _, _, [] => []
  | fuel + 1, n, place :: rest =>
    let name := nameOf order n
    if reserved.contains name then assign order reserved fuel (n + 1) (place :: rest)
    else (place, name) :: assign order reserved fuel (n + 1) rest

def names (text : String) (given : List String) (u : Usage) : List (Nat × String) :=
  let reserved := Token.keywords ++ strictWords ++ given ++ u.free
  let places := places u
  assign (ordered text u) reserved (reserved.length + places.length + 1) 0 places

end ScriptTree.Js.Rename
