import ScriptTree.Number.Integer
import ScriptTree.Starlark.Method
import ScriptTree.Starlark.Sort

/-!
Built-in functions.
-/

namespace ScriptTree.Starlark.Builtin

open Arguments

def names : List String := [
  "abs", "all", "any", "bool", "bytes", "chr", "dict", "dir", "enumerate", "fail", "float",
  "getattr", "hasattr", "hash", "int", "len", "list", "max", "min", "ord", "print", "range", "repr",
  "reversed", "sorted", "str", "tuple", "type", "zip"]

def item (arguments : List Value) (i : Nat) : Value := arguments[i]?.getD .none

/-! Numbers. -/

def digitOf? (b : UInt8) : Option Nat :=
  if 48 ≤ b && b ≤ 57 then some (b.toNat - 48)
  else if 97 ≤ b && b ≤ 122 then some (b.toNat - 87)
  else if 65 ≤ b && b ≤ 90 then some (b.toNat - 55)
  else none

def digitsOf? (base : Nat) (digits : ByteString) : Option Nat :=
  if digits.isEmpty then none
  else
    digits.foldlM (fun n b =>
      match digitOf? b with
      | some d => if d < base then some (n * base + d) else none
      | none => none) 0

def markedBase? (b : UInt8) : Option Nat :=
  if b = 111 || b = 79 then some 8
  else if b = 120 || b = 88 then some 16
  else if b = 98 || b = 66 then some 2
  else none

/-- A numeral without sign. In base zero the numeral tells its base, and a leading zero is
followed by zeros only. -/
def naturalOf? (base : Nat) (digits : ByteString) : Option Nat :=
  let plain (base : Nat) (digits : ByteString) := digitsOf? (if base = 0 then 10 else base) digits
  match digits with
  | 48 :: mark :: rest =>
    match (if rest.isEmpty then none else markedBase? mark) with
    | some own => if base = 0 || base = own then plain own rest else plain base digits
    | none =>
      if base = 0 then (if (mark :: rest).all (· = 48) then some 0 else none)
      else plain base digits
  | digits => plain base digits

def integerOf? (base : Nat) (text : ByteString) : Option Int :=
  match text with
  | 43 :: rest => (naturalOf? base rest).map fun n => (n : Int)
  | 45 :: rest => (naturalOf? base rest).map fun n => -(n : Int)
  | digits => (naturalOf? base digits).map fun n => (n : Int)

def toInt (a : Arguments) : Result Value := do
  let bound ← a.bind "int" [{ name := "x", isOptional := false }, { name := "base" }]
  let base := bound.lookup "base"
  match (bound.lookup "x").getD .none with
  | .string s =>
    let base ←
      match base with
      | none => pure 10
      | some v =>
        match v.toIndex with
        | .error _ => fail ("int: for base, got " ++ v.typeName ++ ", want int")
        | .ok b =>
          if b ≠ 0 && (b < 2 || 36 < b) then fail "int: base must be an integer >= 2 && <= 36"
          else pure b.toNat
    match integerOf? base s with
    | some n => return .int n
    | none => fail ("int: invalid literal with base " ++ Nat.repr base ++ ": " ++ s)
  | v =>
    if base.isSome then fail "int: can't convert non-string with explicit base"
    else
      match v with
      | .bool b => return .int b.toNat
      | v => return .int (← Result.named "int" v.toInteger)

def floatOfText (s : ByteString) : Result Value :=
  let lower := s.text.map Char.toLower
  if s.isEmpty then fail "float: empty string"
  else if ["nan", "+nan", "-nan"].contains lower then .ok (.float .nan)
  else if ["inf", "+inf", "infinity", "+infinity"].contains lower then
    .ok (.float (.infinity false))
  else if ["-inf", "-infinity"].contains lower then .ok (.float (.infinity true))
  else
    match s.text?.bind Number.read? with
    | some reading =>
      if reading.value.isInfinite then fail "floating-point number too large"
      else .ok (.float reading.value)
    | none => fail ("invalid float literal: " ++ s)

def toFloat (a : Arguments) : Result Value := do
  a.refuseNames "float"
  match a.positional with
  | [] => return .float .zero
  | [.bool b] => return .float (Value.floatOfInt b.toNat)
  | [.int n] => return .float (← Value.finiteFloat n)
  | [.float x] => return .float x
  | [.string s] => floatOfText s
  | [v] => fail ("float got " ++ v.typeName ++ ", want number or string")
  | vs => fail ("float got " ++ Nat.repr vs.length ++ " arguments, wants 1")

def magnitude (v : Value) : Result Value :=
  match v with
  | .int n => .ok (.int n.natAbs)
  | .float x => .ok (.float (.assemble false x.magnitude))
  | v => fail ("got " ++ v.typeName ++ ", want int or float")

/-- A hash that sums the characters of a string in powers of 31, as a signed word. -/
def textHash (s : ByteString) : Int :=
  let n := (Text.chars s).foldl (fun (h : Nat) c => (31 * h + c.toNat) % Nat.pow 2 32) 0
  if n < Nat.pow 2 31 then n else (n : Int) - Nat.pow 2 32

def hashOf (v : Value) : Result Value :=
  match v with
  | .string b => .ok (.int (textHash b))
  | .bytes b => .ok (.int (Value.hashBytes b))
  | v => fail ("hash: got " ++ v.typeName ++ ", want string or bytes")

def rangeOf (a : Arguments) : Result Value := do
  let arguments ← a.ordered "range" 1 [.word, .word, .word]
  let number (i : Nat) : Int := (item arguments i).intOr 0
  match arguments.length with
  | 1 => return .range (.make 0 (number 0) 1)
  | 2 => return .range (.make (number 0) (number 1) 1)
  | _ =>
    if number 2 = 0 then fail "range: step argument must not be zero"
    else return .range (.make (number 0) (number 1) (number 2))

/-! Text. -/

/-- The text with every malformed byte replaced. -/
def transcoded (b : ByteString) : ByteString := Text.ofChars (Text.chars b)

def toText (s : Store) (v : Value) : Value :=
  match v with
  | .bytes b => .string (transcoded b)
  | v => .string (v.plain s)

def toBytes (v : Value) : Run Value := do
  match v with
  | .bytes b => return .bytes b
  | .string b => return .bytes (transcoded b)
  | v =>
    match ← Run.iterator? v with
    | none =>
      Run.fail ("bytes: got " ++ v.typeName ++ ", want string, bytes, or iterable of ints")
    | some it =>
      let bytes ← it.fold (fun (bytes : ByteString) v =>
        match v.toByte with
        | .ok b => return b :: bytes
        | .error e => Run.fail ("bytes: at index " ++ Nat.repr bytes.length ++ ", " ++ e)) []
      return .bytes bytes.reverse

def character (v : Value) : Result Value := do
  let n ← Result.named "chr" v.toIndex
  if n < 0 then fail ("chr: Unicode code point " ++ Text.integer n ++ " out of range (<0)")
  else if 0x10FFFF < n then
    fail ("chr: Unicode code point U+" ++
      String.ofList ((Nat.toDigits 16 n.toNat).map Char.toUpper) ++ " out of range (>0x10FFFF)")
  else return .string (Text.ofChars [Text.charOf n.toNat])

def codeOf (v : Value) : Result Value :=
  match v with
  | .string b =>
    match Text.chars b with
    | [c] => .ok (.int c.toNat)
    | cs => fail ("ord: string encodes " ++ Nat.repr cs.length ++ " Unicode code points, want 1")
  | .bytes [b] => .ok (.int b.toNat)
  | .bytes b => fail ("ord: bytes has length " ++ Nat.repr b.length ++ ", want 1")
  | v => fail ("ord: got " ++ v.typeName ++ ", want string or bytes")

def messageOf (s : Store) (function : String) (a : Arguments) : Result ByteString := do
  let bound ← ({ a with positional := [] } : Arguments).bind function [⟨"sep", .text, true⟩]
  let separator := ((bound.lookup "sep").getD .none).textOr " "
  return ByteString.join separator (a.positional.map (Value.plain s))

/-! Sequences. -/

def listOf (items : List Value) : Run Value := Run.newList items.toArray

def itemsOf (function : String) (least : Nat) (a : Arguments) : Run (List Value) := do
  match ← (a.ordered function least [.iterable] : Result _) with
  | v :: _ => return (← Run.iterator v).toList
  | [] => return []

def enumerated (a : Arguments) : Run Value := do
  let arguments ← (a.ordered "enumerate" 1 [.iterable, .word] : Result _)
  let items := (← Run.iterator (item arguments 0)).toList
  let start := (item arguments 1).intOr 0
  listOf (items.zipIdx.map fun (v, i) => .tuple [.int (wrap (start + i)), v])

/-- Rows of the items at one place of each value, at most `n` of them, last first. -/
def rows : Nat → List Value → List Iterator → List Value
  | 0, done, _ => done
  | n + 1, done, its =>
    match its.mapM Iterator.next? with
    | some nexts => rows n (.tuple (nexts.map (·.1)) :: done) (nexts.map (·.2))
    | none => done

def zipped (a : Arguments) : Run Value := do
  (a.refuseNames "zip" : Result _)
  let s ← get
  let its ← a.positional.zipIdx.mapM fun (v, i) =>
    match v.iterator? s with
    | some it => pure it
    | none =>
      Run.fail ("zip: argument #" ++ Nat.repr (i + 1) ++ " is not iterable: " ++ v.typeName)
  match its with
  | [] => listOf []
  | first :: rest =>
    let n := rest.foldl (fun n it => min n it.remaining) first.remaining
    listOf (rows n [] its).reverse

/-! Functions that call others. -/

abbrev Apply := Value → Value → Run Value

def keyOf (apply : Apply) (key : Option Value) (v : Value) : Run Value :=
  match key with
  | none => pure v
  | some f => apply f v

def extreme (apply : Apply) (name : String) (a : Arguments) : Run Value := do
  if a.positional.isEmpty then
    Run.fail (name ++ " requires at least one positional argument")
  let bound ← (({ a with positional := [] } : Arguments).bind name [⟨"key", .callable, true⟩] :
    Result _)
  let key := bound.lookup "key"
  let op := if name = "max" then BinaryOp.greater else .less
  let source := match a.positional with
    | [v] => v
    | vs => .tuple vs
  match ← Run.iterator? source with
  | none => Run.fail (name ++ ": " ++ source.typeName ++ " value is not iterable")
  | some it =>
    Run.holding source (do
      match it.next? with
      | none => Run.fail (name ++ ": argument is an empty sequence")
      | some (first, it) =>
        let firstKey ← keyOf apply key first
        let (best, _) ← it.fold (fun (best : Value × Value) v => do
          let k ← keyOf apply key v
          if ← Run.named name (Run.compare op k best.2) then return (v, k) else return best)
          (first, firstKey)
        return best)

def sorted (apply : Apply) (a : Arguments) : Run Value := do
  let bound ← (a.bind "sorted" [
    ⟨"iterable", .iterable, false⟩, ⟨"key", .callable, true⟩, ⟨"reverse", .bool, true⟩] : Result _)
  let source := (bound.lookup "iterable").getD .none
  let key := bound.lookup "key"
  let reverse := ((bound.lookup "reverse").getD .none).truth {}
  let items := (← Run.iterator source).toList
  let keyed ← Run.holding source (items.mapM fun v => do return (← keyOf apply key v, v))
  let s ← get
  let less (x y : Value × Value) : Result Bool :=
    if reverse then Order.compareValues s .less y.1 x.1 else Order.compareValues s .less x.1 y.1
  let ordered ← (Sort.stable less keyed.toArray : Result _)
  Run.newList (ordered.map (·.2))

/-! Calls. -/

def getting (a : Arguments) : Run Value := do
  let arguments ← (a.ordered "getattr" 2 [.any, .text, .any] : Result _)
  let name := (item arguments 1).textOr []
  match ← Method.find? (item arguments 0) name, arguments[2]? with
  | some m, _ => return m
  | none, some v => return v
  | none, none => Run.fail ("getattr: " ++ Method.missing (item arguments 0) name)

def call (apply : Apply) (name : String) (a : Arguments) : Run Value := do
  let take (least : Nat) (kinds : List Want) : Run (List Value) :=
    (a.ordered name least kinds : Result _)
  let one (kind : Want) : Run Value := do return item (← take 1 [kind]) 0
  let single : Run Value := (a.single name : Result Value)
  match name with
  | "abs" => (magnitude (← one .any) : Result Value)
  | "all" =>
    let it ← Run.iterator (← one .iterable)
    let s ← get
    return .bool !(it.any fun v => !v.truth s)
  | "any" =>
    let it ← Run.iterator (← one .iterable)
    let s ← get
    return .bool (it.any fun v => v.truth s)
  | "bool" =>
    let v := item (← take 0 [.any]) 0
    return .bool (v.truth (← get))
  | "bytes" => toBytes (← single)
  | "chr" => (character (← single) : Result Value)
  | "dict" =>
    if 1 < a.positional.length then
      Run.fail ("dict: got " ++ Nat.repr a.positional.length ++ " arguments, want at most 1")
    match ← Run.newDict {} with
    | .dict address =>
      Run.named name (Method.Dict.update address a)
      return .dict address
    | v => return v
  | "dir" => listOf ((Method.names (← single)).map fun (n : String) => .string n)
  | "enumerate" => enumerated a
  | "fail" => Run.fail ("fail: " ++ (← (messageOf (← get) name a : Result _)))
  | "float" => (toFloat a : Result Value)
  | "getattr" => getting a
  | "hasattr" =>
    let arguments ← take 2 [.any, .text]
    let field := (item arguments 1).textOr []
    return .bool ((Method.names (item arguments 0)).any fun n => Text.toBytes n == field)
  | "hash" => (hashOf (← one .any) : Result Value)
  | "int" => (toInt a : Result Value)
  | "len" =>
    let v ← one .any
    match v.length? (← get) with
    | some n => return .int n
    | none => Run.fail ("len: value of type " ++ v.typeName ++ " has no len")
  | "list" => listOf (← itemsOf name 0 a)
  | "max" | "min" => extreme apply name a
  | "ord" => (codeOf (← single) : Result Value)
  | "print" =>
    let _ ← (messageOf (← get) name a : Result _)
    return .none
  | "range" => (rangeOf a : Result Value)
  | "repr" => return .string ((← one .any).display (← get))
  | "reversed" => listOf (← itemsOf name 1 a).reverse
  | "sorted" => sorted apply a
  | "str" => return toText (← get) (← single)
  | "tuple" => return .tuple (← itemsOf name 0 a)
  | "type" => return .string (← single).typeName
  | _ => zipped a

end ScriptTree.Starlark.Builtin
