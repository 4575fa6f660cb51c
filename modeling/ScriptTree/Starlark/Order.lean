import ScriptTree.Starlark.Expr
import ScriptTree.Starlark.Value

/-!
Equality and order of values, and the entries of dictionaries that equality tells apart.
-/

namespace ScriptTree.Starlark

namespace Order

def answers (op : BinaryOp) (o : Ordering) : Bool :=
  match op with
  | .equal => o == .eq
  | .notEqual => o != .eq
  | .less => o == .lt
  | .greater => o == .gt
  | .lessEqual => o != .gt
  | .greaterEqual => o != .lt
  | _ => false

/-- Bytes are compared from the left. -/
def bytes : ByteString → ByteString → Ordering
  | [], [] => .eq
  | [], _ :: _ => .lt
  | _ :: _, [] => .gt
  | a :: as, b :: bs => if a < b then .lt else if b < a then .gt else bytes as bs

/-- The magnitude of a double with its sign; both zeros have none. -/
def signedMagnitude (x : Number) : Int := if x.signbit then -(x.magnitude : Int) else x.magnitude

/-- Doubles in their order, with `NaN` as the largest. -/
def floats (x y : Number) : Ordering :=
  match x.isNaN, y.isNaN with
  | true, true => .eq
  | true, false => .gt
  | false, true => .lt
  | false, false => compare (signedMagnitude x) (signedMagnitude y)

def intWithFloat (n : Int) (x : Number) : Ordering :=
  if x.isNaN then .lt
  else if x.isInfinite then (if x.signbit then .gt else .lt)
  else
    let (p, q) := x.fractionOf
    compare (n * q) (if x.signbit then -(p : Int) else p)

/-- The order of values that have no items. -/
def scalars? : Value → Value → Option Ordering
  | .bool a, .bool b => some (compare a.toNat b.toNat)
  | .int a, .int b => some (compare a b)
  | .float a, .float b => some (floats a b)
  | .int a, .float b => some (intWithFloat a b)
  | .float a, .int b => some (intWithFloat b a).swap
  | .string a, .string b | .bytes a, .bytes b => some (bytes a b)
  | _, _ => none

def isSame : Value → Value → Bool
  | .none, .none => true
  | .range a, .range b => a.equals b
  | .view k a, .view l b => k = l && a == b
  | .byteView a, .byteView b => a == b
  | .builtin a, .builtin b => a = b
  | .method a _ _, .method b _ _ => a = b
  | .function a _ _ _, .function b _ _ _ => a = b
  | _, _ => false

def depthLimit : Nat := 10

def tooDeep : Result α := fail "comparison exceeded maximum recursion depth"

/-- Strings are compared at any depth. -/
def equalOr (equal : Value → Value → Result Bool) (x y : Value) : Result Bool :=
  match x, y with
  | .string a, .string b => .ok (a == b)
  | .string _, _ => .ok false
  | x, y => equal x y

def sequences (op : BinaryOp) (equal related : Value → Value → Result Bool) :
    List Value → List Value → Result Bool
  | x :: xs, y :: ys =>
    match equal x y with
    | .error e => .error e
    | .ok true => sequences op equal related xs ys
    | .ok false =>
      match op with
      | .equal => .ok false
      | .notEqual => .ok true
      | _ => related x y
  | xs, ys => .ok (answers op (compare xs.length ys.length))

/-- Sequences of different lengths differ whatever their items are. -/
def sequencesOfLength (op : BinaryOp) (equal related : Value → Value → Result Bool)
    (xs ys : List Value) : Result Bool :=
  if (op = .equal || op = .notEqual) && xs.length ≠ ys.length then .ok (op = .notEqual)
  else sequences op equal related xs ys

/-- Whether two keys are equal. Keys have no items that can change. -/
def keysEqual : Nat → Value → Value → Result Bool
  | 0, _, _ => tooDeep
  | depth + 1, .tuple xs, .tuple ys =>
    let equal := equalOr (keysEqual depth)
    sequencesOfLength .equal equal equal xs ys
  | _ + 1, x, y =>
    match scalars? x y with
    | some o => .ok (o == .eq)
    | none => .ok (isSame x y)

end Order

namespace Value

def hashBytes (b : ByteString) : Nat :=
  (b.foldl (fun (h : UInt32) x => (h ^^^ x.toUInt32) * 16777619) 2166136261).toNat

def hashInt (n : Int) : Nat := (n % 4294967291).toNat

mutual

/-- A number that equal keys have in common; what can change is no key. -/
def hash : Value → Result Nat
  | none => .ok 0
  | bool b => .ok b.toNat
  | int n => .ok (hashInt n)
  | float x => .ok (if x.isFinite then hashInt (truncated x) else 1)
  | string b | bytes b => .ok (hashBytes b)
  | tuple items => hashAll 1 items
  | builtin name => .ok (hashBytes name)
  | method identity _ _ | function identity _ _ _ => .ok identity
  | list _ => fail "unhashable type: list"
  | dict _ => fail "unhashable type: dict"
  | range r => fail ("unhashable: " ++ (range r).typeName)
  | view kind b => fail ("unhashable: " ++ (view kind b).typeName)
  | byteView b => fail ("unhashable: " ++ (byteView b).typeName)

def hashAll (total : Nat) : List Value → Result Nat
  | [] => .ok total
  | v :: rest => do
    let n ← hash v
    hashAll ((total * 31 + n) % 4294967291) rest

end

end Value

namespace DictObject

def placeAmong (d : DictObject) (key : Value) : List Nat → Result (Option Nat)
  | [] => .ok none
  | i :: rest =>
    match d.entries[i]? with
    | none => placeAmong d key rest
    | some entry =>
      match Order.equalOr (Order.keysEqual Order.depthLimit) key entry.key with
      | .error e => .error e
      | .ok true => .ok (some i)
      | .ok false => placeAmong d key rest

def placeOf? (d : DictObject) (hash : Nat) (key : Value) : Result (Option Nat) :=
  d.placeAmong key (d.places.getD hash [])

def get? (d : DictObject) (key : Value) : Result (Option Value) := do
  let hash ← key.hash
  let place ← d.placeOf? hash key
  return place.bind fun i => (d.entries[i]?).map (·.value)

def push (d : DictObject) (entry : Entry) : DictObject :=
  { d with
    entries := d.entries.push entry
    places := d.places.alter entry.hash fun known => some (d.entries.size :: known.getD [])
    touched := true }

def replaceAt (d : DictObject) (i : Nat) (value : Value) : DictObject :=
  { d with entries := d.entries.modify i fun entry => { entry with value } }

def ofEntries (entries : List Entry) : DictObject := entries.foldl push {}

def eraseAt (d : DictObject) (i : Nat) : DictObject :=
  let rest := ofEntries (d.entries.toList.eraseIdx i)
  { rest with readers := d.readers, touched := true }

end DictObject

namespace Order

def dictsEqual (equal : Value → Value → Result Bool) (y : DictObject) : List Entry → Result Bool
  | [] => .ok true
  | entry :: rest =>
    match y.get? entry.key with
    | .ok (some value) =>
      match equal entry.value value with
      | .error e => .error e
      | .ok true => dictsEqual equal y rest
      | .ok false => .ok false
    | _ => .ok false

def compareTo (s : Store) : Nat → BinaryOp → Value → Value → Result Bool
  | 0, _, _, _ => tooDeep
  | depth + 1, op, x, y =>
    let equal := equalOr (compareTo s depth .equal)
    let equality (r : Result Bool) : Result Bool :=
      match op with
      | .equal => r
      | .notEqual => r.map (!·)
      | op => fail (x.typeName ++ " " ++ op.symbol ++ " " ++ y.typeName ++ " not implemented")
    match x, y with
    | .tuple xs, .tuple ys => sequencesOfLength op equal (compareTo s depth op) xs ys
    | .list a, .list b =>
      sequencesOfLength op equal (compareTo s depth op) (s.items a).toList (s.items b).toList
    | .dict a, .dict b =>
      equality (if (s.entries a).size ≠ (s.entries b).size then .ok false
        else dictsEqual equal (s.dictAt b) (s.entries a).toList)
    | x, y =>
      match scalars? x y with
      | some o => .ok (answers op o)
      | none => equality (.ok (isSame x y))

def compareValues (s : Store) (op : BinaryOp) (x y : Value) : Result Bool :=
  compareTo s depthLimit op x y

def equalValues (s : Store) (x y : Value) : Result Bool :=
  equalOr (compareTo s depthLimit .equal) x y

def indexOf? (s : Store) (v : Value) (i : Nat) : List Value → Result (Option Nat)
  | [] => .ok none
  | x :: rest =>
    match equalValues s x v with
    | .error e => .error e
    | .ok true => .ok (some i)
    | .ok false => indexOf? s v (i + 1) rest

end Order

namespace Run

def compare (op : BinaryOp) (x y : Value) : Run Bool := do
  (Order.compareValues (← get) op x y : Result Bool)

def getKey? (address : Nat) (key : Value) : Run (Option Value) := do
  (((← get).dictAt address).get? key : Result _)

def setKey (address : Nat) (key value : Value) : Run Unit := do
  checkDict address "insert into"
  let hash ← (key.hash : Result Nat)
  let place ← (((← get).dictAt address).placeOf? hash key : Result _)
  match place with
  | some i => modifyDict address (·.replaceAt i value)
  | none => modifyDict address (·.push ⟨hash, key, value⟩)

def deleteKey? (address : Nat) (key : Value) : Run (Option Value) := do
  checkDict address "delete from"
  let d := (← get).dictAt address
  if !d.touched then return none
  let hash ← (key.hash : Result Nat)
  match ← (d.placeOf? hash key : Result _) with
  | none => return none
  | some i =>
    modifyDict address (·.eraseAt i)
    return (d.entries[i]?).map (·.value)

end Run

end ScriptTree.Starlark
