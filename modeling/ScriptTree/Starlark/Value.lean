import Std.Data.HashMap
import ScriptTree.Number.Fixed
import ScriptTree.Number.Reader
import ScriptTree.Starlark.Token

/-!
Values of Starlark expressions, and the store that holds what can change: the items of lists,
the entries of dictionaries, and the variables that functions share.
-/

namespace ScriptTree.Starlark

abbrev Result := Except ByteString

inductive StringView where
  | elems
  | elemOrds
  | codepoints
  | codepointOrds
deriving DecidableEq, Inhabited

structure Range where
  start : Int
  stop : Int
  step : Int
  length : Int
deriving DecidableEq, Inhabited

inductive Value where
  | none
  | bool (value : Bool)
  | int (value : Int)
  | float (value : Number)
  | string (value : ByteString)
  | bytes (value : ByteString)
  | list (address : Nat)
  | tuple (items : List Value)
  | dict (address : Nat)
  | range (value : Range)
  | view (kind : StringView) (text : ByteString)
  | byteView (text : ByteString)
  | builtin (name : String)
  /-- A method of a value. Two methods are the same only if they are one object. -/
  | method (identity : Nat) (name : String) (receiver : Value)
  /-- A function with its defaults and the cells it took along. -/
  | function (identity code : Nat) (defaults : List Value) (cells : List Nat)
deriving Inhabited

/-! Ranges. -/

def wrap (n : Int) : Int := (n + Nat.pow 2 63) % Nat.pow 2 64 - Nat.pow 2 63

namespace Range

/-- The number of items; it wraps around as words do. -/
def lengthOf (start stop step : Int) : Int :=
  if 0 < step then
    if start < stop then wrap (Int.tdiv (wrap (stop - 1 - start)) step + 1) else 0
  else if stop < start then wrap (Int.tdiv (wrap (start - 1 - stop)) (-step) + 1)
  else 0

def make (start stop step : Int) : Range := ⟨start, stop, step, lengthOf start stop step⟩

def item (r : Range) (i : Int) : Int := wrap (r.start + wrap (i * r.step))

/-- Ranges are equal when their items are. -/
def equals (a b : Range) : Bool :=
  a.length == b.length &&
    (a.length == 0 || (a.start == b.start && (a.length == 1 || a.step == b.step)))

/-- Whether an integer of machine size is an item. -/
def contains (r : Range) (n : Int) : Bool :=
  let distance := n - r.start
  Int.tmod distance r.step = 0 && 0 ≤ Int.tdiv distance r.step &&
    Int.tdiv distance r.step < r.length

def slice (r : Range) (start stop step : Int) : Range :=
  make (wrap (r.start + wrap (r.step * start))) (wrap (r.start + wrap (r.step * stop)))
    (wrap (r.step * step))

def text (r : Range) : String :=
  let n := Text.integer
  if r.step ≠ 1 then "range(" ++ n r.start ++ ", " ++ n r.stop ++ ", " ++ n r.step ++ ")"
  else if r.start ≠ 0 then "range(" ++ n r.start ++ ", " ++ n r.stop ++ ")"
  else "range(" ++ n r.stop ++ ")"

end Range

/-! The store. -/

structure ListObject where
  items : Array Value := #[]
  /-- Number of iterations under way. -/
  readers : Nat := 0
deriving Inhabited

/-- An entry of a dictionary, with a number that equal keys have in common. -/
structure Entry where
  hash : Nat
  key : Value
  value : Value
deriving Inhabited

structure DictObject where
  /-- Entries in the order in which their keys came. -/
  entries : Array Entry := #[]
  /-- Places of entries by the numbers of their keys. -/
  places : Std.HashMap Nat (List Nat) := {}
  readers : Nat := 0
  /-- Whether anything was ever put there. -/
  touched : Bool := false
deriving Inhabited

structure Store where
  lists : Array ListObject := #[]
  dicts : Array DictObject := #[]
  /-- Shared variables, empty until they are assigned. -/
  cells : Array (Option Value) := #[]
  identities : Nat := 0
  steps : Nat := 0
deriving Inhabited

abbrev Run := StateT Store Result

def fail (message : ByteString) : Result α := .error message

namespace Store

def listAt (s : Store) (address : Nat) : ListObject := s.lists.getD address {}

def items (s : Store) (address : Nat) : Array Value := (s.listAt address).items

def dictAt (s : Store) (address : Nat) : DictObject := s.dicts.getD address {}

def entries (s : Store) (address : Nat) : Array Entry := (s.dictAt address).entries

end Store

namespace Run

def fail (message : ByteString) : Run α := fun _ => .error message

def newList (items : Array Value) : Run Value :=
  modifyGet fun s => (.list s.lists.size, { s with lists := s.lists.push { items } })

def newDict (d : DictObject) : Run Value :=
  modifyGet fun s => (.dict s.dicts.size, { s with dicts := s.dicts.push d })

def newIdentity : Run Nat :=
  modifyGet fun s => (s.identities, { s with identities := s.identities + 1 })

def modifyList (address : Nat) (change : ListObject → ListObject) : Run Unit :=
  modify fun s => { s with lists := s.lists.modify address change }

def modifyItems (address : Nat) (change : Array Value → Array Value) : Run Unit :=
  modifyList address fun l => { l with items := change l.items }

def modifyDict (address : Nat) (change : DictObject → DictObject) : Run Unit :=
  modify fun s => { s with dicts := s.dicts.modify address change }

/-- A list may not change while it is gone through. -/
def checkList (address : Nat) (verb : String) : Run Unit := do
  if 0 < ((← get).listAt address).readers then
    fail ("cannot " ++ verb ++ " list during iteration")

def checkDict (address : Nat) (verb : String) : Run Unit := do
  if 0 < ((← get).dictAt address).readers then
    fail ("cannot " ++ verb ++ " hash table during iteration")

def named (name : String) (work : Run α) : Run α := fun s =>
  match work s with
  | .ok r => .ok r
  | .error e => .error (name ++ ": " ++ e)

end Run

def Result.named (name : String) (r : Result α) : Result α :=
  r.mapError fun e => name ++ ": " ++ e

namespace Value

def typeName : Value → String
  | none => "NoneType"
  | bool _ => "bool"
  | int _ => "int"
  | float _ => "float"
  | string _ => "string"
  | bytes _ => "bytes"
  | list _ => "list"
  | tuple _ => "tuple"
  | dict _ => "dict"
  | range _ => "range"
  | view .elems _ | view .elemOrds _ => "string.elems"
  | view .codepoints _ | view .codepointOrds _ => "string.codepoints"
  | byteView _ => "bytes.elems"
  | builtin _ | method _ _ _ => "builtin_function_or_method"
  | function _ _ _ _ => "function"

def truth (s : Store) : Value → Bool
  | none => false
  | bool b => b
  | int n => n ≠ 0
  | float x => !x.isZero
  | string b | bytes b => !b.isEmpty
  | list a => !(s.items a).isEmpty
  | tuple items => !items.isEmpty
  | dict a => !(s.entries a).isEmpty
  | range r => 0 < r.length
  | view _ _ | byteView _ | builtin _ | method _ _ _ | function _ _ _ _ => true

def length? (s : Store) : Value → Option Int
  | string b | bytes b | view .elems b | view .elemOrds b => some b.length
  | list a => some (s.items a).size
  | tuple items => some items.length
  | dict a => some (s.entries a).size
  | range r => if r.length < 0 then Option.none else some r.length
  | none | bool _ | int _ | float _ | view .codepoints _ | view .codepointOrds _ | byteView _
  | builtin _ | method _ _ _ | function _ _ _ _ => Option.none

def isCallable : Value → Bool
  | builtin _ | method _ _ _ | function _ _ _ _ => true
  | _ => false

/-! Numbers. -/

def floatOfInt (n : Int) : Number := .ofDecimal (n < 0) n.natAbs 0

def finiteFloat (n : Int) : Result Number :=
  let x := floatOfInt n
  if x.isInfinite then fail "int too large to convert to float" else .ok x

def truncated (x : Number) : Int :=
  let (n, d) := x.fractionOf
  let m : Int := ((n / d : Nat) : Int)
  if x.signbit then -m else m

/-- The integer of a number; a float is cut at its point. -/
def toInteger (v : Value) : Result Int :=
  match v with
  | int n => .ok n
  | float x =>
    if x.isInfinite then fail "cannot convert float infinity to integer"
    else if x.isNaN then fail "cannot convert float NaN to integer"
    else .ok (truncated x)
  | v => fail ("cannot convert " ++ v.typeName ++ " to int")

def toIndex (v : Value) : Result Int :=
  match v with
  | int n =>
    if n < -(Nat.pow 2 31 : Int) || Nat.pow 2 31 ≤ n then fail (Text.integer n ++ " out of range")
    else .ok n
  | v => fail ("got " ++ v.typeName ++ ", want int")

def toWord (v : Value) : Result Int :=
  match v with
  | int n =>
    if n < -(Nat.pow 2 63 : Int) || Nat.pow 2 63 ≤ n then
      fail (Text.integer n ++ " out of range (want value in signed 64-bit range)")
    else .ok n
  | v => fail ("got " ++ v.typeName ++ ", want int")

def toByte (v : Value) : Result UInt8 :=
  match v with
  | int n =>
    if n < 0 || 256 ≤ n then
      fail (Text.integer n ++ " out of range (want value in unsigned 8-bit range)")
    else .ok (UInt8.ofNat n.toNat)
  | v => fail ("got " ++ v.typeName ++ ", want int")

end Value

end ScriptTree.Starlark
