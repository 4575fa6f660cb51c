import ScriptTree.Number.Layout
import ScriptTree.Number.Reader
import ScriptTree.Text.ByteString

/-!
JSON texts as they are read. Numbers stay as they are written, and arrays and objects
remember their text. Of members with the same key the first counts. Strings keep bytes
that are malformed.
-/

namespace ScriptTree.Json

open Text (Piece)

inductive Term where
  | null
  | boolean (value : Bool)
  | number (text : String)
  | string (value : ByteString)
  | array (raw : ByteString) (items : List Term)
  | object (raw : ByteString) (members : List (ByteString × Term))
deriving Inhabited

namespace Reader

def isSpace (c : Char) : Bool := c = ' ' || c = '\t' || c = '\n' || c = '\r'

def skipSpace (ps : List Piece) : List Piece := ps.dropWhile (·.isOf isSpace)

/-! Strings. -/

def hex4? : List Piece → Option (Nat × List Piece)
  | .char a :: .char b :: .char c :: .char d :: rest =>
    if [a, b, c, d].all (Number.isDigitOf 16) then
      some (Number.valueOf 16 [a, b, c, d], rest)
    else none
  | _ => none

def isSurrogate (n : Nat) : Bool := 0xD800 ≤ n && n < 0xE000

/-- The character of two surrogates in order, or else the replacement character. -/
def joinSurrogates (high low : Nat) : Char :=
  if 0xD800 ≤ high && high < 0xDC00 && 0xDC00 ≤ low && low < 0xE000 then
    Char.ofNat ((high - 0xD800) * 1024 + (low - 0xDC00) + 0x10000)
  else Text.replacement

def simpleEscape? (c : Char) : Option Char :=
  if c = '"' || c = '\\' || c = '/' then some c
  else if c = 'b' then some (Char.ofNat 8)
  else if c = 'f' then some (Char.ofNat 12)
  else if c = 'n' then some '\n'
  else if c = 'r' then some '\r'
  else if c = 't' then some '\t'
  else none

/-- The character that an escape stands for, after the backslash, and the rest. A
surrogate takes a numeric escape that directly follows it along. -/
def escaped? : List Piece → Option (Char × List Piece)
  | .char 'u' :: rest => do
    let (n, rest) ← hex4? rest
    if isSurrogate n then
      match rest with
      | .char '\\' :: .char 'u' :: tail =>
        let (low, tail) ← hex4? tail
        return (joinSurrogates n low, tail)
      | _ => return (Text.replacement, rest)
    else return (Char.ofNat n, rest)
  | .char c :: rest => (simpleEscape? c).map fun x => (x, rest)
  | _ => none

def string? : Nat → List Piece → Option (List Piece × List Piece)
  | 0, _ => none
  | fuel + 1, ps =>
    match ps with
    | [] => none
    | .char '"' :: rest => some ([], rest)
    | .char '\\' :: rest => do
      let (c, rest) ← escaped? rest
      let (tail, rest) ← string? fuel rest
      return (.char c :: tail, rest)
    | p :: rest =>
      if p.isOf (·.toNat < 0x20) then none
      else do
        let (tail, rest) ← string? fuel rest
        return (p :: tail, rest)

/-! Numbers. -/

def digits : List Piece → List Char × List Piece
  | .char c :: rest =>
    if Number.isDecimalDigit c then (c :: (digits rest).1, (digits rest).2)
    else ([], .char c :: rest)
  | ps => ([], ps)

/-- A whole part: a zero alone, or digits that start with another digit. -/
def whole? : List Piece → Option (List Char × List Piece)
  | .char '0' :: rest => some (['0'], rest)
  | ps => if (digits ps).1.isEmpty then none else some (digits ps)

def fraction? : List Piece → Option (List Char × List Piece)
  | .char '.' :: rest =>
    if (digits rest).1.isEmpty then none else some ('.' :: (digits rest).1, (digits rest).2)
  | ps => some ([], ps)

def sign : List Piece → List Char × List Piece
  | .char '+' :: rest => (['+'], rest)
  | .char '-' :: rest => (['-'], rest)
  | ps => ([], ps)

def exponent? : List Piece → Option (List Char × List Piece)
  | .char mark :: rest =>
    if mark = 'e' || mark = 'E' then
      let (sign, rest) := sign rest
      if (digits rest).1.isEmpty then none
      else some (mark :: sign ++ (digits rest).1, (digits rest).2)
    else some ([], .char mark :: rest)
  | ps => some ([], ps)

def number? (ps : List Piece) : Option (List Char × List Piece) := do
  let (sign, ps) := match ps with
    | .char '-' :: rest => (['-'], rest)
    | _ => ([], ps)
  let (whole, ps) ← whole? ps
  let (fraction, ps) ← fraction? ps
  let (exponent, ps) ← exponent? ps
  return (sign ++ whole ++ fraction ++ exponent, ps)

/-! Values. -/

def word? (word : String) (ps : List Piece) : Option (List Piece) :=
  let word := word.toList.map Piece.char
  if word.isPrefixOf ps then some (ps.drop word.length) else none

/-- The text between two positions of the input, the later one given by what is left
there. -/
def slice (start rest : List Piece) : ByteString :=
  Text.ofPieces (start.take (start.length - rest.length))

mutual

/-- One value, which starts at the first character; `fuel` bounds its length. -/
def value? : Nat → List Piece → Option (Term × List Piece)
  | 0, _ => none
  | fuel + 1, ps =>
    match ps with
    | .char '"' :: rest => do
      let (s, rest) ← string? fuel rest
      return (.string (Text.ofPieces s), rest)
    | .char '[' :: rest => do
      let (items, rest) ← items? fuel true (skipSpace rest)
      return (.array (slice ps rest) items, rest)
    | .char '\x7b' :: rest => do
      let (members, rest) ← members? fuel true (skipSpace rest)
      return (.object (slice ps rest) members, rest)
    | .char 't' :: _ => (word? "true" ps).map fun rest => (.boolean true, rest)
    | .char 'f' :: _ => (word? "false" ps).map fun rest => (.boolean false, rest)
    | .char 'n' :: _ => (word? "null" ps).map fun rest => (.null, rest)
    | _ => (number? ps).map fun (text, rest) => (.number (String.ofList text), rest)

/-- The items of an array up to its end. Only before the first item may the array end
without one. -/
def items? : Nat → Bool → List Piece → Option (List Term × List Piece)
  | 0, _, _ => none
  | fuel + 1, start, ps =>
    match start, ps with
    | true, .char ']' :: rest => some ([], rest)
    | _, _ => do
      let (item, rest) ← value? fuel ps
      match skipSpace rest with
      | .char ',' :: rest =>
        let (items, rest) ← items? fuel false (skipSpace rest)
        return (item :: items, rest)
      | .char ']' :: rest => return ([item], rest)
      | _ => none

def members? : Nat → Bool → List Piece → Option (List (ByteString × Term) × List Piece)
  | 0, _, _ => none
  | fuel + 1, start, ps =>
    match start, ps with
    | true, .char '\x7d' :: rest => some ([], rest)
    | _, .char '"' :: rest => do
      let (key, rest) ← string? fuel rest
      match skipSpace rest with
      | .char ':' :: rest =>
        let (item, rest) ← value? fuel (skipSpace rest)
        match skipSpace rest with
        | .char ',' :: rest =>
          let (members, rest) ← members? fuel false (skipSpace rest)
          return ((Text.ofPieces key, item) :: members, rest)
        | .char '\x7d' :: rest => return ([(Text.ofPieces key, item)], rest)
        | _ => none
      | _ => none
    | _, _ => none

end

def extend (ps : List Piece) : Term → Term
  | .array _ items => .array (Text.ofPieces ps) items
  | .object _ members => .object (Text.ofPieces ps) members
  | t => t

end Reader

namespace Term

def ofPieces? (ps : List Piece) : Option Term := do
  let ps := Reader.skipSpace ps
  let (t, rest) ← Reader.value? (ps.length + 1) ps
  if (Reader.skipSpace rest).isEmpty then some (Reader.extend ps t) else none

def ofBytes? (bytes : ByteString) : Option Term := ofPieces? (Text.pieces bytes)

def ofString? (s : String) : Option Term := ofPieces? (s.toList.map .char)

def get? (t : Term) (key : ByteString) : Option Term :=
  match t with
  | object _ members => members.lookup key
  | _ => none

def numberOf (text : String) : Number :=
  match Number.read? text with
  | some reading => reading.value
  | none => .zero

/-- Whether a written number is an integer without fraction and exponent. -/
def isIntegerText (text : String) : Bool :=
  match text.toList with
  | '-' :: rest => !rest.isEmpty && rest.all Number.isDecimalDigit
  | cs => !cs.isEmpty && cs.all Number.isDecimalDigit

/-- A term as plain text: a string is itself, an integer its digits, another number
its positional form, and an array or object its own text. -/
def plainText : Term → ByteString
  | null => ""
  | boolean b => if b then "true" else "false"
  | number text => if isIntegerText text then text else (numberOf text).positional
  | string s => s
  | array raw _ => raw
  | object raw _ => raw

end Term

end ScriptTree.Json
