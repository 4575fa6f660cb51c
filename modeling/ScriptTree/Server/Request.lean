import ScriptTree.Number.Reader
import ScriptTree.Text.ByteString
import ScriptTree.Text.Casing
import ScriptTree.Text.Lines

/-!
Requests of the protocol: what they are for, the parts of their targets, and their identifiers,
which are numbers of 128 bits in one of four spellings.
-/

namespace ScriptTree.Server

structure Request where
  method : String
  target : String
  headers : List (String × ByteString) := []
  body : List UInt8 := []
  /-- Whether reading the body fails behind these bytes. -/
  broken : Bool := false
  cancelled : Bool := false
deriving DecidableEq, Inhabited

namespace Request

/-- The value of the first header of a name in any case. -/
def header (r : Request) (name : String) : ByteString :=
  ((r.headers.find? (fun h => Text.lower h.1 = Text.lower name)).map (·.2)).getD []

end Request

namespace Target

def hexValue? (b : UInt8) : Option UInt8 :=
  let n := b.toNat
  if 48 ≤ n && n ≤ 57 then some (b - 48)
  else if 97 ≤ n && n ≤ 102 then some (b - 87)
  else if 65 ≤ n && n ≤ 70 then some (b - 55)
  else none

/-- Bytes for their escapes; in a query a plus sign is a blank. -/
def unescape? (query : Bool) : List UInt8 → Option (List UInt8)
  | [] => some []
  | 37 :: a :: b :: rest => do
    let high ← hexValue? a
    let low ← hexValue? b
    return (high * 16 + low) :: (← unescape? query rest)
  | 37 :: _ => none
  | b :: rest => do
    return (if query && b = 43 then 32 else b) :: (← unescape? query rest)

def isPlain (b : UInt8) : Bool :=
  let c := Char.ofNat b.toNat
  b < 128 && (c.isAlphanum || "-_.~$&+,/:;=@".toList.contains c)

def hexDigit (n : UInt8) : UInt8 := if n < 10 then n + 48 else n + 55

def escapePath (bytes : List UInt8) : List UInt8 :=
  bytes.flatMap fun b => if isPlain b then [b] else [37, hexDigit (b / 16), hexDigit (b % 16)]

def withoutHost (target : String) : String :=
  if Text.startsWith "/" target then target
  else
    match Text.splitOn '/' target with
    | _ :: "" :: _ :: rest => "/" ++ String.intercalate "/" rest
    | _ => target

/-- The path that routes are chosen by: without escapes, unless they are not the usual
ones. -/
def path (target : String) : List UInt8 :=
  let raw := Text.toBytes (((Text.splitOn '?' (withoutHost target)).head?).getD "")
  match unescape? false raw with
  | some plain => if escapePath plain = raw then plain else raw
  | none => raw

def query (target : String) : String :=
  match Text.splitOn '?' target with
  | _ :: rest => String.intercalate "?" rest
  | [] => ""

/-- The name and the value of one part of a query; a malformed part has none. -/
def parameter? (part : String) : Option (String × String) :=
  if part = "" || part.toList.contains ';' then none
  else
    let key := part.toList.takeWhile (· ≠ '=')
    let value := part.toList.drop (key.length + 1)
    let decode (cs : List Char) : Option String :=
      (unescape? true (Text.toBytes (String.ofList cs))).map Text.ofBytes
    match decode key, decode value with
    | some k, some v => some (k, v)
    | _, _ => none

def parameter (target name : String) : String :=
  let all := (Text.splitOn '&' (query target)).filterMap parameter?
  (all.lookup name).getD ""

end Target

namespace RequestId

def isHex (b : UInt8) : Bool := Number.isDigitOf 16 (Char.ofNat b.toNat)

def isDashed (id : ByteString) : Bool :=
  id.length = 36 && (id.zipIdx.all fun (b, i) =>
    if i = 8 || i = 13 || i = 18 || i = 23 then b = 45 else isHex b)

/-- A number may stand between any two bytes, or after a name, or without dashes. -/
def isValid (id : ByteString) : Bool :=
  match id.length with
  | 36 => isDashed id
  | 45 => ByteString.lower (id.take 9) = Text.toBytes "urn:uuid:" && isDashed (id.drop 9)
  | 38 => isDashed ((id.drop 1).take 36)
  | 32 => id.all isHex
  | _ => false

end RequestId

end ScriptTree.Server
