import ScriptTree.Starlark.Operator
import ScriptTree.Text.ByteString
import ScriptTree.Text.Letter

/-!
Methods of strings and of bytes.
-/

namespace ScriptTree.Starlark.Method.Text

open Arguments

def names : List String := [
  "capitalize", "codepoint_ords", "codepoints", "count", "elem_ords", "elems", "endswith", "find",
  "format", "index", "isalnum", "isalpha", "isdigit", "islower", "isspace", "istitle", "isupper",
  "join", "lower", "lstrip", "partition", "removeprefix", "removesuffix", "replace", "rfind",
  "rindex", "rpartition", "rsplit", "rstrip", "split", "splitlines", "startswith", "strip", "title",
  "upper"]

def item (arguments : List Value) (i : Nat) : Value := arguments[i]?.getD .none

def textAt (arguments : List Value) (i : Nat) : ByteString := (item arguments i).textOr []

def partOf (function : String) (s : ByteString) (low high : Value) : Result (ByteString × Int) := do
  let (start, stop) ← Result.named function (Operator.interval low high s.length)
  return (Operator.part s start stop, start)

structure Search where
  last : Bool := false
  required : Bool := false

def search (name : String) (how : Search) (s : ByteString) (a : Arguments) : Result Value := do
  let arguments ← a.ordered name 1 [.text, .any, .any]
  let (part, start) ← partOf name s (item arguments 1) (item arguments 2)
  let sought := textAt arguments 0
  let found := if how.last then sought.lastIndexOf? part else sought.indexOf? part
  match found with
  | some i => return .int (i + start)
  | none => if how.required then fail (name ++ ": substring not found") else return .int (-1)

def counting (s : ByteString) (a : Arguments) : Result Value := do
  let arguments ← a.ordered "count" 1 [.text, .any, .any]
  let (part, _) ← partOf "count" s (item arguments 1) (item arguments 2)
  return .int ((textAt arguments 0).count part)

def anyAffix (name : String) (has : ByteString → Bool) (i : Nat) : List Value → Result Bool
  | [] => .ok false
  | .string b :: rest => if has b then .ok true else anyAffix name has (i + 1) rest
  | v :: _ =>
    fail (name ++ ": want string, got " ++ v.typeName ++ ", for element " ++ Nat.repr i)

def affixed (name : String) (has : ByteString → ByteString → Bool) (s : ByteString)
    (a : Arguments) : Result Value := do
  let arguments ← a.ordered name 1 [.any, .any, .any]
  let (part, _) ← partOf name s (item arguments 1) (item arguments 2)
  match item arguments 0 with
  | .tuple items => return .bool (← anyAffix name (has · part) 0 items)
  | .string b => return .bool (has b part)
  | v => fail (name ++ ": got " ++ v.typeName ++ ", want string or tuple of string")

def parts (last : Bool) (s : ByteString) (separator : Value) (limit : Option Nat) :
    Result (List ByteString) :=
  match separator with
  | .none => .ok (if last then s.lastWords limit else s.words limit)
  | .string [] => fail "split: empty separator"
  | .string separator =>
    .ok (if last then ByteString.splitLast separator limit s
      else ByteString.split separator limit s)
  | v => fail ("split: got " ++ v.typeName ++ " for separator, want string")

/-- A limit of which a negative number is none. -/
def limitOf (v : Value) : Option Nat :=
  let n := v.intOr (-1)
  if n < 0 then none else some n.toNat

def newTexts (texts : List ByteString) : Run Value :=
  Run.newList (texts.map Value.string).toArray

def splitting (name : String) (last : Bool) (s : ByteString) (a : Arguments) : Run Value := do
  let arguments ← (a.ordered name 0 [.any, .word] : Result _)
  newTexts (← (parts last s (item arguments 0) (limitOf (item arguments 1)) : Result _))

def joining (s : ByteString) (a : Arguments) : Run Value := do
  let arguments ← (a.ordered "join" 1 [.iterable] : Result _)
  let it ← Run.iterator (item arguments 0)
  let texts ← it.fold (fun (texts : List ByteString) v =>
    match v with
    | .string b => return b :: texts
    | v => Run.fail ("join: in list, want string, got " ++ v.typeName)) []
  return .string (ByteString.join s texts.reverse)

def stripping (name : String) (start stop : Bool) (s : ByteString) (a : Arguments) :
    Result Value := do
  let arguments ← a.ordered name 0 [.text]
  let set := Text.chars (textAt arguments 0)
  let p (c : Char) : Bool := if set.isEmpty then Text.isBlank c else set.contains c
  let s := if start then s.trimStart p else s
  return .string (if stop then s.trimEnd p else s)

def partitioning (name : String) (last : Bool) (s : ByteString) (a : Arguments) :
    Result Value := do
  let arguments ← a.ordered name 1 [.text]
  let separator := textAt arguments 0
  if separator.isEmpty then fail (name ++ ": empty separator")
  let found := if last then separator.lastIndexOf? s else separator.indexOf? s
  let texts :=
    match found with
    | some i => [s.take i, separator, s.drop (i + separator.length)]
    | none => if last then [[], [], s] else [s, [], []]
  return .tuple (texts.map .string)

def replacing (s : ByteString) (a : Arguments) : Result Value := do
  let arguments ← a.ordered "replace" 2 [.text, .text, .word]
  return .string
    (ByteString.replace (textAt arguments 0) (textAt arguments 1) (limitOf (item arguments 2)) s)

def splittingLines (s : ByteString) (a : Arguments) : Run Value := do
  let arguments ← (a.ordered "splitlines" 0 [.bool] : Result _)
  let keep := (item arguments 0).truth {}
  let lines := s.splitLines
  newTexts (if keep then lines
    else lines.map fun line => if line.getLast? = some 10 then line.dropLast else line)

def plain? (name : String) (s : ByteString) : Option Value :=
  match name with
  | "capitalize" => some (.string s.capitalize)
  | "lower" => some (.string s.lower)
  | "upper" => some (.string s.upper)
  | "title" => some (.string s.title)
  | "elems" => some (.view .elems s)
  | "elem_ords" => some (.view .elemOrds s)
  | "codepoints" => some (.view .codepoints s)
  | "codepoint_ords" => some (.view .codepointOrds s)
  | "isalnum" => some (.bool (s.allChars fun c => Text.isLetter c || Text.isDecimalDigit c))
  | "isalpha" => some (.bool (s.allChars Text.isLetter))
  | "isdigit" => some (.bool (s.allChars Text.isDecimalDigit))
  | "isspace" => some (.bool (s.allChars Text.isBlank))
  | "islower" => some (.bool (s.isOfCase ByteString.lower))
  | "isupper" => some (.bool (s.isOfCase ByteString.upper))
  | "istitle" => some (.bool s.isTitled)
  | _ => none

def withArguments (name : String) (s : ByteString) (a : Arguments) : Run Value := do
  match name with
  | "count" => (counting s a : Result Value)
  | "find" => (search name {} s a : Result Value)
  | "index" => (search name { required := true } s a : Result Value)
  | "rfind" => (search name { last := true } s a : Result Value)
  | "rindex" => (search name { last := true, required := true } s a : Result Value)
  | "startswith" => (affixed name (fun t s => t.isPrefixOf s) s a : Result Value)
  | "endswith" => (affixed name (fun t s => t.isSuffixOf s) s a : Result Value)
  | "format" => (Template.format (← get) s a : Result Value)
  | "join" => joining s a
  | "partition" => (partitioning name false s a : Result Value)
  | "rpartition" => (partitioning name true s a : Result Value)
  | "removeprefix" =>
    let part := textAt (← (a.ordered name 1 [.text] : Result _)) 0
    return .string (if part.isPrefixOf s then s.drop part.length else s)
  | "removesuffix" =>
    let part := textAt (← (a.ordered name 1 [.text] : Result _)) 0
    return .string (if part.isSuffixOf s then s.take (s.length - part.length) else s)
  | "replace" => (replacing s a : Result Value)
  | "split" => splitting name false s a
  | "rsplit" => splitting name true s a
  | "splitlines" => splittingLines s a
  | "lstrip" => (stripping name true false s a : Result Value)
  | "rstrip" => (stripping name false true s a : Result Value)
  | _ => (stripping name true true s a : Result Value)

def call (name : String) (s : ByteString) (a : Arguments) : Run Value := do
  match plain? name s with
  | some v =>
    let _ ← (a.ordered name 0 [] : Result _)
    return v
  | none => withArguments name s a

end ScriptTree.Starlark.Method.Text
