import ScriptTree.Starlark.Arguments
import ScriptTree.Starlark.Display
import ScriptTree.Starlark.Order

/-!
Values written into text: the operator `%` and the method `format`.
-/

namespace ScriptTree.Starlark.Template

def signed (n : Int) (digits : Nat → List Char) : ByteString :=
  (if n < 0 then "-" else "") ++ String.ofList (digits n.natAbs)

/-- A double as a conversion writes it; one conversion has no form of its own and writes
itself. -/
def floatForm (c : Char) (x : Number) : String :=
  if x.isNaN || x.isInfinite then Value.floatText x
  else if c = 'g' then Value.floatText x
  else if c = 'G' then (Value.floatText x).map Char.toUpper
  else if c = 'e' then x.fixedScientific 6 "e"
  else if c = 'E' then x.fixedScientific 6 "E"
  else if c = 'f' then x.fixed 6
  else "%" ++ String.ofList [c]

def character (v : Value) : Result ByteString :=
  match v with
  | .int n =>
    if n < 0 || 0x10FFFF < n then
      fail ("%c format requires a valid Unicode code point, got " ++ Text.integer n)
    else .ok (Text.ofChars [Text.charOf n.toNat])
  | .string b =>
    match Text.chars b with
    | [c] => .ok (Text.ofChars [c])
    | _ => fail "%c format requires a single-character string"
  | v => fail ("%c format requires int or single-character string, not " ++ v.typeName)

def convert (s : Store) (c : Char) (v : Value) : Result ByteString :=
  let mark : ByteString := Text.ofChars ['%', c]
  if c = 's' then .ok (v.plain s)
  else if c = 'r' then .ok (v.display s)
  else if ['d', 'i', 'o', 'x', 'X'].contains c then
    match v.toInteger with
    | .error e => fail (mark ++ " format requires integer: " ++ e)
    | .ok n =>
      let digits : Nat → List Char :=
        if c = 'o' then Nat.toDigits 8
        else if c = 'x' then Nat.toDigits 16
        else if c = 'X' then fun k => (Nat.toDigits 16 k).map Char.toUpper
        else Nat.toDigits 10
      .ok (signed n digits)
  else if ['e', 'f', 'g', 'E', 'F', 'G'].contains c then
    match v with
    | .int n => .ok (floatForm c (Value.floatOfInt n))
    | .float x => .ok (floatForm c x)
    | v => fail (mark ++ " format requires float, not " ++ v.typeName)
  else if c = 'c' then character v
  else if c = '%' then .ok "%"
  else fail ("unknown conversion " ++ mark)

def cut? (mark : UInt8) (s : ByteString) : Option (ByteString × ByteString) :=
  (ByteString.indexOf? [mark] s).map fun i => (s.take i, s.drop (i + 1))

/-- The value for a place in a text, and the text after it; `index` is the number of values
used. -/
def operandAt (s : Store) (operand : Value) (values : List Value) (index : Nat)
    (text : ByteString) : Result (Value × ByteString) :=
  match text with
  | 40 :: rest =>
    match cut? 41 rest, operand with
    | none, _ => fail "incomplete format key"
    | some (key, rest), .dict a =>
      match (s.dictAt a).get? (.string key) with
      | .ok (some v) => .ok (v, rest)
      | _ => fail ("key not found: " ++ key)
    | some _, _ => fail "format requires a mapping"
  | _ =>
    match values[index]? with
    | some v => .ok (v, text)
    | none => fail "not enough arguments for format string"

def interpolateFrom (s : Store) (operand : Value) (values : List Value) :
    Nat → Nat → ByteString → ByteString → Result (ByteString × Nat)
  | 0, index, written, _ => .ok (written, index)
  | fuel + 1, index, written, text =>
    match cut? 37 text with
    | none => .ok (written ++ text, index)
    | some (before, 37 :: rest) =>
      interpolateFrom s operand values fuel index (written ++ before ++ "%") rest
    | some (before, rest) => do
      let (value, rest) ← operandAt s operand values index rest
      match rest with
      | [] => fail "incomplete format"
      | c :: rest =>
        let converted ← convert s (Char.ofNat c.toNat) value
        interpolateFrom s operand values fuel (index + 1) (written ++ before ++ converted) rest

def interpolate (s : Store) (text : ByteString) (operand : Value) : Result Value := do
  let values := match operand with
    | .tuple items => items
    | v => [v]
  let (written, used) ← interpolateFrom s operand values (text.length + 1) 0 [] text
  let isMapping := match operand with
    | .dict _ => true
    | _ => false
  if used < values.length && !isMapping then fail "too many arguments for format string"
  else return .string written

/-! The method `format`. -/

/-- The text outside the braces, where a closing brace is written twice. -/
def literalPart : Nat → ByteString → Result ByteString
  | 0, text => .ok text
  | fuel + 1, text =>
    match cut? 125 text with
    | none => .ok text
    | some (before, 125 :: rest) => do
      let tail ← literalPart fuel rest
      return before ++ "\x7d" ++ tail
    | some _ => fail "format: single '\x7d' in format"

structure Field where
  name : ByteString
  conversion : ByteString := "s"
  spec : ByteString := []

def fieldOf (s : ByteString) : Field :=
  match cut? 33 s with
  | some (name, rest) =>
    let (conversion, spec) := (cut? 58 rest).getD (rest, [])
    { name, conversion, spec }
  | none =>
    let (name, spec) := (cut? 58 s).getD (s, [])
    { name, spec }

structure Numbering where
  automatic : Bool := false
  manual : Bool := false
  next : Nat := 0

/-- A number as a word, if none of its parts wraps around to a negative one. -/
def decimal? (s : ByteString) : Option Nat :=
  (s.foldlM (fun (n : Int) b =>
    if 48 ≤ b && b ≤ 57 then
      let n := wrap (n * 10 + (b.toNat - 48 : Nat))
      if n < 0 then none else some n
    else none) 0).map Int.toNat

def lookUp (a : Arguments) (numbering : Numbering) (name : ByteString) :
    Result (Value × Numbering) :=
  if name.isEmpty then
    if numbering.manual then
      fail ("format: cannot switch from manual field specification to automatic " ++
        "field numbering")
    else
      match a.positional[numbering.next]? with
      | some v => .ok (v, { numbering with automatic := true, next := numbering.next + 1 })
      | none => fail "format: tuple index out of range"
  else
    match decimal? name with
    | some n =>
      if numbering.automatic then
        fail ("format: cannot switch from automatic field numbering to manual " ++
          "field specification")
      else
        match a.positional[n]? with
        | some v => .ok (v, { numbering with manual := true })
        | none => fail "format: tuple index out of range"
    | none =>
      match a.named.lookup name with
      | some v => .ok (v, numbering)
      | none =>
        if name.contains 46 then
          fail ("format: attribute syntax x.y is not supported in replacement fields: " ++ name)
        else if name.contains 91 then
          fail ("format: element syntax a[i] is not supported in replacement fields: " ++ name)
        else if name.contains 123 then fail "format: nested replacement fields not supported"
        else fail ("format: keyword " ++ name ++ " not found")

def formatFrom (s : Store) (a : Arguments) :
    Nat → Numbering → ByteString → ByteString → Result ByteString
  | 0, _, written, _ => .ok written
  | fuel + 1, numbering, written, text =>
    match cut? 123 text with
    | none => do
      let last ← literalPart (text.length + 1) text
      return written ++ last
    | some (before, rest) => do
      let before ← literalPart (before.length + 1) before
      match rest with
      | 123 :: rest => formatFrom s a fuel numbering (written ++ before ++ "\x7b") rest
      | _ =>
        match cut? 125 rest with
        | none => fail "format: unmatched '\x7b' in format"
        | some (inside, rest) =>
          let field := fieldOf inside
          let (value, numbering) ← lookUp a numbering field.name
          if !field.spec.isEmpty then
            fail ("format spec features not supported in replacement fields: " ++ field.spec)
          let converted ←
            if field.conversion == Text.toBytes "s" then .ok (value.plain s)
            else if field.conversion == Text.toBytes "r" then .ok (value.display s)
            else fail ("format: unknown conversion " ++ field.conversion.quote)
          formatFrom s a fuel numbering (written ++ before ++ converted) rest

def format (s : Store) (text : ByteString) (a : Arguments) : Result Value := do
  let written ← formatFrom s a (text.length + 1) {} [] text
  return .string written

end ScriptTree.Starlark.Template
