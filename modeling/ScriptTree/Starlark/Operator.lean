import ScriptTree.Number.Fixed
import ScriptTree.Starlark.Template

/-!
Operators on values, indices and slices.
-/

namespace ScriptTree.Starlark.Operator

def unary (s : Store) (op : UnaryOp) (v : Value) : Result Value :=
  match op, v with
  | .not, v => .ok (.bool (!v.truth s))
  | .plus, .int n => .ok (.int n)
  | .plus, .float x => .ok (.float x)
  | .minus, .int n => .ok (.int (-n))
  | .minus, .float x => .ok (.float (.ofFloat (-x.toFloat)))
  | .complement, .int n => .ok (.int (-n - 1))
  | op, v => fail ("unknown unary op: " ++ op.symbol ++ " " ++ v.typeName)

def unknown (op : BinaryOp) (x y : Value) : Result α :=
  fail ("unknown binary op: " ++ x.typeName ++ " " ++ op.symbol ++ " " ++ y.typeName)

/-! Numbers. -/

def isArithmetic : BinaryOp → Bool
  | .add | .sub | .mul | .div | .floorDiv | .mod => true
  | _ => false

def onFloats (op : BinaryOp) (x y : Number) : Result Value :=
  let a := x.toFloat
  let b := y.toFloat
  let done (f : Float) : Result Value := .ok (.float (.ofFloat f))
  match op with
  | .add => done (a + b)
  | .sub => done (a - b)
  | .mul => done (a * b)
  | .div => if y.isZero then fail "floating-point division by zero" else done (a / b)
  | .floorDiv => if y.isZero then fail "floored division by zero" else done (a / b).floor
  | _ =>
    if y.isZero then fail "floating-point modulo by zero"
    else .ok (.float (x.flooredRemainder y))

/-- Bits of integers, where a negative number has infinitely many leading ones. -/
def bitwise (f : Nat → Nat → Nat) (g : Bool → Bool → Bool) (x y : Int) : Int :=
  let width := max x.natAbs.log2 y.natAbs.log2 + 2
  let mask : Int := Nat.pow 2 width
  let bits := f (x % mask).toNat (y % mask).toNat % Nat.pow 2 width
  if g (x < 0) (y < 0) then (bits : Int) - mask else bits

def onIntegers (op : BinaryOp) (x y : Int) : Result Value :=
  match op with
  | .add => .ok (.int (x + y))
  | .sub => .ok (.int (x - y))
  | .mul => .ok (.int (x * y))
  | .floorDiv => if y = 0 then fail "floored division by zero" else .ok (.int (Int.fdiv x y))
  | .mod => if y = 0 then fail "integer modulo by zero" else .ok (.int (Int.fmod x y))
  | .bitOr => .ok (.int (bitwise (· ||| ·) (· || ·) x y))
  | .bitAnd => .ok (.int (bitwise (· &&& ·) (· && ·) x y))
  | .bitXor => .ok (.int (bitwise (· ^^^ ·) xor x y))
  | op => unknown op (.int x) (.int y)

def shift (left : Bool) (x : Int) (count : Value) : Result Value := do
  let n ← count.toIndex
  if n < 0 then fail ("negative shift count: " ++ Text.integer n)
  else if left then
    if 512 ≤ n then fail ("shift count too large: " ++ Text.integer n)
    else return .int (x * Nat.pow 2 n.toNat)
  else return .int (x.shiftRight n.toNat)

/-- A number as a double; an integer may be too large for one. -/
def toFloat? : Value → Option (Result Number)
  | .int n => some (Value.finiteFloat n)
  | .float x => some (.ok x)
  | _ => none

/-- Arithmetic with a double among the operands, or a quotient. -/
def real (op : BinaryOp) (x y : Value) : Result Value :=
  match toFloat? x, toFloat? y with
  | some a, some b => do
    let a ← a
    let b ← b
    onFloats op a b
  | some a, none => do
    if op = .div then
      let _ ← a
    unknown op x y
  | none, _ => unknown op x y

/-! Sequences. -/

def maxSize : Nat := Nat.pow 2 30

def repeated (items : List α) (n : Int) : Result (List α) :=
  if items.isEmpty then .ok []
  else
    match (Value.int n).toIndex with
    | .error _ => fail ("repeat count " ++ Text.integer n ++ " too large")
    | .ok n =>
      if maxSize ≤ items.length * n.toNat then
        fail ("excessive repeat (" ++ Nat.repr items.length ++ " * " ++ Text.integer n ++ " elements)")
      else .ok (List.replicate n.toNat items).flatten

def product (x : Value) (n : Int) : Run Value := do
  match x with
  | .string b => return .string (← (repeated b n : Result _))
  | .bytes b => return .bytes (← (repeated b n : Result _))
  | .list a =>
    let items ← (repeated ((← get).items a).toList n : Result _)
    Run.newList items.toArray
  | .tuple items => return .tuple (← (repeated items n : Result _))
  | x => (unknown .mul x (.int n) : Result Value)

/-- The entries of two dictionaries; those of the second win. -/
def union (a b : DictObject) : DictObject :=
  let all := b.entries.foldl (fun (d : DictObject) entry =>
    match d.placeOf? entry.hash entry.key with
    | .ok (some i) => d.replaceAt i entry.value
    | .ok none => d.push entry
    | .error _ => d) { a with readers := 0 }
  { all with touched := true }

def member (s : Store) (x y : Value) : Result Bool :=
  let among (items : List Value) : Result Bool := (Order.indexOf? s x 0 items).map Option.isSome
  match y with
  | .list a => among (s.items a).toList
  | .tuple items => among items
  | .dict a =>
    match (s.dictAt a).get? x with
    | .ok found => .ok found.isSome
    | .error _ => .ok false
  | .string b =>
    match x with
    | .string part => .ok (part.isIn b)
    | x => fail ("'in <string>' requires string as left operand, not " ++ x.typeName)
  | .bytes b =>
    match x with
    | .bytes part => .ok (part.isIn b)
    | .int n =>
      match (Value.int n).toByte with
      | .ok byte => .ok (b.contains byte)
      | .error e => fail ("int in bytes: " ++ e)
    | x => fail ("'in bytes' requires bytes or int as left operand, not " ++ x.typeName)
  | .range r =>
    match x.toInteger with
    | .ok n =>
      match (Value.int n).toIndex with
      | .ok n => .ok (r.contains n)
      | .error _ => .ok false
    | .error _ => fail ("'in <range>' requires integer as left operand, not " ++ x.typeName)
  | y => unknown .isIn x y

def binary (op : BinaryOp) (x y : Value) : Run Value := do
  if op = .isIn then return .bool (← (member (← get) x y : Result Bool))
  else if op = .notIn then return .bool !(← (member (← get) x y : Result Bool))
  else if op.isComparison then return .bool (← Run.compare op x y)
  else
    match op, x, y with
    | .shiftLeft, .int n, y => (shift true n y : Result Value)
    | .shiftRight, .int n, y => (shift false n y : Result Value)
    | .mod, .string text, v => (Template.interpolate (← get) text v : Result Value)
    | .add, .string a, .string b => return .string (a ++ b)
    | .add, .bytes a, .bytes b => return .bytes (a ++ b)
    | .add, .list a, .list b =>
      let s ← get
      Run.newList (s.items a ++ s.items b)
    | .add, .tuple a, .tuple b => return .tuple (a ++ b)
    | .bitOr, .dict a, .dict b =>
      let s ← get
      Run.newDict (union (s.dictAt a) (s.dictAt b))
    | .div, x, y => (real .div x y : Result Value)
    | op, .int a, .int b => (onIntegers op a b : Result Value)
    | .mul, .int _, .float _ | .mul, .float _, .int _ => (real .mul x y : Result Value)
    | .mul, .int n, y =>
      match y with
      | .string _ | .bytes _ | .list _ | .tuple _ => product y n
      | y => (unknown .mul (.int n) y : Result Value)
    | .mul, x, .int n => product x n
    | op, x, y =>
      if isArithmetic op then (real op x y : Result Value) else (unknown op x y : Result Value)

/-! Indices and slices. -/

def outOfRange (i n : Int) (v : Value) : Result α :=
  if n = 0 then fail ("index " ++ Text.integer i ++ " out of range: empty " ++ v.typeName)
  else
    fail (v.typeName ++ " index " ++ Text.integer i ++ " out of range [" ++ Text.integer (-n) ++
      ":" ++ Text.integer (wrap (n - 1)) ++ "]")

/-- The place of an index; a negative one counts from the end. -/
def placeOf (v : Value) (n i : Int) : Result Nat :=
  let j := if i < 0 then i + n else i
  if j < 0 || n ≤ j then outOfRange i n v else .ok j.toNat

def numbered? (s : Store) (v : Value) : Option (Int × (Nat → Value)) :=
  let at? (items : Array Value) : Int × (Nat → Value) := (items.size, fun i => items.getD i .none)
  match v with
  | .string b => some (b.length, fun i => .string ((b.drop i).take 1))
  | .bytes b => some (b.length, fun i => .bytes ((b.drop i).take 1))
  | .list a => some (at? (s.items a))
  | .tuple items => some (at? items.toArray)
  | .range r => some (r.length, fun i => .int (r.item i))
  | .view .elems b => some (at? (Value.viewItems .elems b).toArray)
  | .view .elemOrds b => some (at? (Value.viewItems .elemOrds b).toArray)
  | _ => none

def index (s : Store) (v key : Value) : Result Value :=
  match v with
  | .dict a => do
    match ← (s.dictAt a).get? key with
    | some x => return x
    | none => fail ("key " ++ key.display s ++ " not in dict")
  | v =>
    match numbered? s v with
    | some (n, item) =>
      match key.toIndex with
      | .error e => fail (v.typeName ++ " index: " ++ e)
      | .ok i => (placeOf v n i).map item
    | none => fail ("unhandled index operation " ++ v.typeName ++ "[" ++ key.typeName ++ "]")

def setIndex (v key value : Value) : Run Unit := do
  match v with
  | .dict a => Run.setKey a key value
  | .list a =>
    let i ← (key.toIndex : Result Int)
    let place ← (placeOf v ((← get).items a).size i : Result Nat)
    Run.checkList a "assign to element of"
    Run.modifyItems a fun items => items.modify place fun _ => value
  | v => Run.fail (v.typeName ++ " value does not support item assignment")

/-- A bound of a part; a negative one counts from the end. -/
def bound (name : String) (v : Value) (length default : Int) : Result Int :=
  match v with
  | .none => .ok default
  | v =>
    match v.toIndex with
    | .error e => fail ("invalid " ++ name ++ " index: " ++ e)
    | .ok n => .ok (if n < 0 then n + length else n)

def clamp (length n : Int) : Int := if n < 0 then 0 else if length < n then length else n

def interval (low high : Value) (length : Int) : Result (Int × Int) := do
  let start ← bound "start" low length 0
  let stop ← bound "end" high length length
  return (clamp length start, clamp length stop)

def part (b : ByteString) (start stop : Int) : ByteString :=
  (b.take stop.toNat).drop start.toNat

structure Slice where
  start : Int
  stop : Int
  step : Int
deriving Inhabited

namespace Slice

def of (low high step : Value) (length : Int) : Result Slice := do
  let stride ←
    match step with
    | .none => pure 1
    | v =>
      match v.toIndex with
      | .error e => fail ("invalid slice step: " ++ e)
      | .ok n => if n = 0 then fail "zero is not a valid slice step" else pure n
  if 0 < stride then
    let (start, stop) ← interval low high length
    return ⟨start, max start stop, stride⟩
  else
    let start ← bound "start" low length (length - 1)
    let start := min start (length - 1)
    let stop ← bound "end" high length (-1)
    let stop := max stop (-1)
    return ⟨max start stop, stop, stride⟩

def count (p : Slice) : Nat :=
  if 0 < p.step then ((p.stop - p.start + p.step - 1) / p.step).toNat
  else ((p.start - p.stop - p.step - 1) / (-p.step)).toNat

def pick (items : List α) (p : Slice) : List α :=
  if p.step = 1 then (items.take p.stop.toNat).drop p.start.toNat
  else
    let array := items.toArray
    (List.range p.count).filterMap fun (i : Nat) => array[(p.start + p.step * (i : Int)).toNat]?

end Slice

def slice (v low high step : Value) : Run Value := do
  let s ← get
  let places (length : Int) : Run Slice := (Slice.of low high step length : Result Slice)
  match v with
  | .string b => return .string ((← places b.length).pick b)
  | .bytes b => return .bytes ((← places b.length).pick b)
  | .list a =>
    let items := (s.items a).toList
    Run.newList ((← places items.length).pick items).toArray
  | .tuple items => return .tuple ((← places items.length).pick items)
  | .range r =>
    let p ← places r.length
    return .range (r.slice p.start p.stop p.step)
  | v => Run.fail ("invalid slice operand " ++ v.typeName)

end ScriptTree.Starlark.Operator
