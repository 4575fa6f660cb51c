import ScriptTree.Starlark.Iterator
import ScriptTree.Starlark.Spelling

/-!
Arguments of built-in functions: how many there may be, of which types, and under which
names.
-/

namespace ScriptTree.Starlark

structure Arguments where
  positional : List Value := []
  named : List (ByteString × Value) := []
deriving Inhabited

namespace Arguments

inductive Want where
  | any
  | text
  | bool
  | word
  | callable
  | iterable
deriving DecidableEq, Inhabited

def Want.check (k : Want) (v : Value) : Result Unit :=
  let require (holds : Bool) (want : String) : Result Unit :=
    if holds then .ok () else fail ("got " ++ v.typeName ++ ", want " ++ want)
  match k with
  | any => .ok ()
  | text =>
    require (match v with
      | .string _ => true
      | _ => false) "string"
  | bool =>
    require (match v with
      | .bool _ => true
      | _ => false) "bool"
  | word => v.toWord.map fun _ => ()
  | callable => require v.isCallable "callable"
  | iterable => require v.isIterable "iterable"

def refuseNames (function : String) (a : Arguments) : Result Unit :=
  if a.named.isEmpty then .ok () else fail (function ++ " does not accept keyword arguments")

def checkAll (function : String) (i : Nat) : List Want → List Value → Result Unit
  | k :: kinds, v :: rest =>
    match k.check v with
    | .error e => fail (function ++ ": for parameter " ++ Nat.repr i ++ ": " ++ e)
    | .ok _ => checkAll function (i + 1) kinds rest
  | _, _ => .ok ()

/-- At least `least` arguments of given kinds by position, and none by name. -/
def ordered (function : String) (least : Nat) (kinds : List Want) (a : Arguments) :
    Result (List Value) := do
  let n := a.positional.length
  let most := kinds.length
  let reject (bound : String) (want : Nat) : Result Unit :=
    fail (function ++ ": got " ++ Nat.repr n ++ " arguments, want " ++
      (if least < most then bound else "") ++ Nat.repr want)
  if !a.named.isEmpty then fail (function ++ ": unexpected keyword arguments")
  else if n < least then reject "at least " least
  else if most < n then reject "at most " most
  checkAll function 1 kinds a.positional
  return a.positional

def single (function : String) (a : Arguments) : Result Value := do
  a.refuseNames function
  match a.positional with
  | [v] => .ok v
  | vs =>
    fail (function ++ ": got " ++ Nat.repr vs.length ++ " arguments, want exactly 1")

structure Parameter where
  name : String
  kind : Want := .any
  isOptional : Bool := true
deriving Inhabited

abbrev Bound := List (String × Value)

def bindOrdered (function : String) (p : Parameter) (v : Value) : Result (String × Value) :=
  match p.kind.check v with
  | .error e => fail (function ++ ": for parameter " ++ p.name ++ ": " ++ e)
  | .ok _ => .ok (p.name, v)

def bindNamed (function : String) (parameters : List Parameter) (bound : Bound)
    (argument : ByteString × Value) : Result Bound :=
  let (name, v) := argument
  match parameters.find? fun p => Text.toBytes p.name == name with
  | some p =>
    if (bound.lookup p.name).isSome then
      fail (function ++ ": got multiple values for keyword argument " ++ name.quote)
    else
      match p.kind.check v with
      | .error e => fail (function ++ ": for parameter " ++ name.quote ++ ": " ++ e)
      | .ok _ => .ok ((p.name, v) :: bound)
  | none =>
    let candidates := (parameters.take ((parameters.length + 1) / 2)).map (·.name)
    let hint := match Spelling.nearest? name candidates with
      | some other => " (did you mean " ++ other ++ "?)"
      | none => ""
    fail (function ++ ": unexpected keyword argument " ++ name.quote ++ hint)

def bind (function : String) (parameters : List Parameter) (a : Arguments) : Result Bound := do
  if parameters.length < a.positional.length then
    fail (function ++ ": got " ++ Nat.repr a.positional.length ++ " arguments, want at most " ++
      Nat.repr parameters.length)
  let ordered ← (parameters.zip a.positional).mapM fun (p, v) => bindOrdered function p v
  let bound ← a.named.foldlM (bindNamed function parameters) ordered
  let required := (parameters.drop a.positional.length).takeWhile (!·.isOptional)
  match required.find? fun p => (bound.lookup p.name).isNone with
  | some p => fail (function ++ ": missing argument for " ++ p.name)
  | none => return bound

end Arguments

namespace Value

def textOr (default : ByteString) : Value → ByteString
  | string b => b
  | _ => default

def intOr (default : Int) : Value → Int
  | int n => n
  | _ => default

end Value

end ScriptTree.Starlark
