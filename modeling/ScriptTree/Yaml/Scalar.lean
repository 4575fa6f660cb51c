import ScriptTree.Number.Integer
import ScriptTree.Text.Base64
import ScriptTree.Yaml.Node
import ScriptTree.Yaml.Timestamp

/-!
What a scalar stands for: its tag decides, or else its text.
-/

namespace ScriptTree.Yaml

inductive Scalar where
  | null
  | bool (value : Bool)
  | int (value : Int)
  | float (value : Number)
  | timestamp (value : Timestamp)
  | str (value : String)
  /-- The bytes that a text stands for. -/
  | binary (value : ByteString)
  /-- A text with a tag that this library does not read. -/
  | foreign (tag : Tag) (value : String)
deriving DecidableEq, Inhabited

namespace Scalar

def tag : Scalar → Tag
  | null => .null
  | bool _ => .bool
  | int _ => .int
  | float _ => .float
  | timestamp _ => .timestamp
  | str _ => .str
  | binary _ => .binary
  | foreign tag _ => tag

def word? (text : String) : Option Scalar :=
  if ["true", "True", "TRUE"].contains text then some (bool true)
  else if ["false", "False", "FALSE"].contains text then some (bool false)
  else if ["", "~", "null", "Null", "NULL"].contains text then some null
  else if [".nan", ".NaN", ".NAN"].contains text then some (float .nan)
  else if [".inf", ".Inf", ".INF", "+.inf", "+.Inf", "+.INF"].contains text then
    some (float (.infinity false))
  else if ["-.inf", "-.Inf", "-.INF"].contains text then some (float (.infinity true))
  else none

/-- A decimal number with a fraction or an exponent, or without both. -/
def isFloatText (text : String) : Bool :=
  let cs := (Number.takeSign text.toList).2
  let whole := cs.takeWhile Number.isDecimalDigit
  let rest := cs.dropWhile Number.isDecimalDigit
  let (fraction, rest) := match rest with
    | '.' :: tail => (tail.takeWhile Number.isDecimalDigit, tail.dropWhile Number.isDecimalDigit)
    | _ => ([], rest)
  (!whole.isEmpty || !fraction.isEmpty) &&
    (match rest with
      | [] => true
      | mark :: tail => (mark = 'e' || mark = 'E') && (Number.exponent? tail).isSome)

def float? (text : String) : Option Scalar :=
  match Number.read? text with
  | some reading => if reading.overflow then none else some (float reading.value)
  | none => none

def int? (text : String) : Option Scalar :=
  match Number.signed 64 text with
  | .ok n => some (int n)
  | .error _ =>
    match Number.unsigned 64 text with
    | .ok n => some (int n)
    | .error _ => none

def markedInt? (text : String) : Option Scalar :=
  let read (base : Nat) (digits : List Char) : Option Scalar :=
    (Number.signedIn base 64 (String.ofList digits)).toOption.map int
  match text.toList with
  | '0' :: 'b' :: digits => read 2 digits
  | '0' :: 'o' :: digits => read 8 digits
  | _ => none

/-- A number or a timestamp, for a text that starts with a digit or a sign. -/
def numeric? (dated : Bool) (text : String) : Option Scalar :=
  let bare := String.ofList (text.toList.filter (· ≠ '_'))
  let moment := if dated then (Timestamp.read? text).map timestamp else none
  let fraction := if isFloatText bare then float? bare else none
  ((moment.or (int? bare)).or fraction).or (markedInt? bare)

def ofPlain (dated : Bool) (text : String) : Scalar :=
  match word? text with
  | some s => s
  | none =>
    match text.toList.head? with
    | none => null
    | some c =>
      if c = '.' then (float? text).getD (str text)
      else if Number.isDecimalDigit c || c = '+' || c = '-' then
        (numeric? dated text).getD (str text)
      else str text

def mismatch (got : Scalar) (text : String) (want : Tag) : Fault :=
  { problem :=
      "cannot decode " ++ got.tag.text ++ " " ++ "`" ++ text ++ "` as a " ++ want.text }

def ofTagged (want : Tag) (text : String) : Except Fault Scalar :=
  if want = .str then .ok (str text)
  else if want = .binary then
    match Text.base64? text with
    | some bytes => .ok (binary bytes)
    | none => .error { problem := "!!binary value contains invalid base64 data" }
  else if [Tag.bool, .int, .float, .null, .timestamp].contains want then
    let got := ofPlain (want = .timestamp) text
    if got.tag = want then .ok got
    else
      match got with
      | int n =>
        if want = .float && n < Nat.pow 2 63 then
          .ok (float (.ofDecimal (n < 0) n.natAbs 0))
        else .error (mismatch got text want)
      | _ => .error (mismatch got text want)
  else .ok (foreign want text)

def read (tag : Option Tag) (text : String) : Except Fault Scalar :=
  match tag with
  | none => .ok (ofPlain true text)
  | some want => ofTagged want text

end Scalar

end ScriptTree.Yaml
