import ScriptTree.Text.Bytes

/-!
The characters of a YAML text. Bytes are read in batches of fixed size, so what is wrong
with a batch shows only when something in it is looked at.
-/

namespace ScriptTree.Yaml

def isAllowed (c : Char) : Bool :=
  let n := c.toNat
  n = 9 || n = 10 || n = 13 || (0x20 ≤ n && n ≤ 0x7E) || n = 0x85 ||
    (0xA0 ≤ n && n ≤ 0xD7FF) || (0xE000 ≤ n && n ≤ 0xFFFD) || 0x10000 ≤ n

inductive Encoding where
  | utf8
  | utf16 (bigEndian : Bool)
deriving DecidableEq, Inhabited

namespace Encoding

/-- The character at the front of some bytes with its width. Without one, either the bytes
are too few or no bytes after them would help. -/
inductive Front where
  | char (value : Char) (width : Nat)
  | short (problem : String)
  | malformed (problem : String)

namespace Front

def ofCode (code width : Nat) : Front :=
  if isAllowed (Text.charOf code) then .char (Text.charOf code) width
  else .malformed "control characters are not allowed"

end Front

def width8? (b : UInt8) : Option Nat :=
  let n := b.toNat
  if n < 0x80 then some 1
  else if n < 0xC0 then none
  else if n < 0xE0 then some 2
  else if n < 0xF0 then some 3
  else if n < 0xF8 then some 4
  else none

def front8 (b : UInt8) (rest : List UInt8) : Front :=
  match width8? b with
  | none => .malformed "invalid leading UTF-8 octet"
  | some width =>
    let others := rest.take (width - 1)
    if others.length < width - 1 then .short "incomplete UTF-8 octet sequence"
    else if !others.all Text.isContinuation then .malformed "invalid trailing UTF-8 octet"
    else
      let lead := if width = 1 then b.toNat else b.toNat % Nat.pow 2 (7 - width)
      let code := others.foldl (fun n b => n * 64 + Text.low6 b) lead
      if (width = 2 && code < 0x80) || (width = 3 && code < 0x800) ||
          (width = 4 && code < 0x10000) then
        .malformed "invalid length of a UTF-8 sequence"
      else if !code.isValidChar then .malformed "invalid Unicode character"
      else .ofCode code width

def unit16 (bigEndian : Bool) (a b : UInt8) : Nat :=
  if bigEndian then a.toNat * 256 + b.toNat else b.toNat * 256 + a.toNat

def front16 (bigEndian : Bool) : List UInt8 → Front
  | a :: b :: rest =>
    let high := unit16 bigEndian a b
    if 0xDC00 ≤ high && high < 0xE000 then .malformed "unexpected low surrogate area"
    else if 0xD800 ≤ high && high < 0xDC00 then
      match rest with
      | c :: d :: _ =>
        let low := unit16 bigEndian c d
        if 0xDC00 ≤ low && low < 0xE000 then
          .ofCode (0x10000 + (high - 0xD800) * 1024 + (low - 0xDC00)) 4
        else .malformed "expected low surrogate area"
      | _ => .short "incomplete UTF-16 surrogate pair"
    else .ofCode high 2
  | _ => .short "incomplete UTF-16 character"

def front (e : Encoding) (b : UInt8) (rest : List UInt8) : Front :=
  match e with
  | utf8 => front8 b rest
  | utf16 bigEndian => front16 bigEndian (b :: rest)

def detect : List UInt8 → Encoding × Nat
  | 0xFF :: 0xFE :: _ => (utf16 false, 2)
  | 0xFE :: 0xFF :: _ => (utf16 true, 2)
  | 0xEF :: 0xBB :: 0xBF :: _ => (utf8, 3)
  | _ => (utf8, 0)

end Encoding

structure Source where
  characters : List Char := []
  batches : List Nat := []
  /-- What is wrong with the batch after these, if there is one. -/
  damage : Option String := none
deriving Inhabited

namespace Source

def batchSize : Nat := 512

/-- Reads a batch with room for so many more bytes: its characters, last first, their
number, and the bytes after it. A character that does not fit starts the next batch. -/
def readBatch (e : Encoding) :
    Nat → Nat → List Char → Nat → List UInt8 → Except String (List Char × Nat × List UInt8)
  | 0, _, before, count, bytes => .ok (before, count, bytes)
  | _, _, before, count, [] => .ok (before, count, [])
  | fuel + 1, room, before, count, b :: rest =>
    match e.front b (rest.take (min 3 (room - 1))) with
    | .char c width =>
      if room < width then .ok (before, count, b :: rest)
      else readBatch e fuel (room - width) (c :: before) (count + 1) (rest.drop (width - 1))
    | .short _ => .ok (before, count, b :: rest)
    | .malformed problem => .error problem

/-- Reads batches to the end of the bytes. Bytes that are too few for a character are
wrong once no more can follow. -/
def readBatches (e : Encoding) :
    Nat → Nat → List Char → List Nat → List UInt8 → Source
  | 0, _, characters, batches, _ => ⟨characters.reverse, batches.reverse, none⟩
  | fuel + 1, room, characters, batches, bytes =>
    match readBatch e room room characters 0 bytes with
    | .error problem => ⟨characters.reverse, batches.reverse, some problem⟩
    | .ok (_, 0, []) => ⟨characters.reverse, batches.reverse, none⟩
    | .ok (_, 0, b :: rest) =>
      let problem := match e.front b rest with
        | .short problem => problem
        | _ => ""
      ⟨characters.reverse, batches.reverse, some problem⟩
    | .ok (characters, count, bytes) =>
      readBatches e fuel batchSize characters (count :: batches) bytes

def ofBytes (bytes : List UInt8) : Source :=
  let (e, mark) := Encoding.detect bytes
  readBatches e (bytes.length + 1) (batchSize - mark) [] [] (bytes.drop mark)

end Source

end ScriptTree.Yaml
