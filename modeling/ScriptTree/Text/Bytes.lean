/-!
Byte sequences read as text. A byte that begins no well-formed character reads as
the replacement character.
-/

namespace ScriptTree.Text

def replacement : Char := Char.ofNat 0xFFFD

def charOf (n : Nat) : Char :=
  if n.isValidChar then Char.ofNat n else replacement

def isContinuation (b : UInt8) : Bool := 0x80 ≤ b.toNat && b.toNat < 0xC0

def low6 (b : UInt8) : Nat := b.toNat % 64

/-- The first character of a byte sequence with the number of bytes it takes;
`none` when the bytes are malformed there. -/
def firstChar? : List UInt8 → Option (Char × Nat)
  | [] => none
  | a :: rest =>
    if a.toNat < 0x80 then some (Char.ofNat a.toNat, 1)
    else
      match rest with
      | [] => none
      | b :: rest =>
        if !isContinuation b then none
        else if 0xC2 ≤ a.toNat && a.toNat < 0xE0 then
          some (Char.ofNat (a.toNat % 32 * 64 + low6 b), 2)
        else
          match rest with
          | [] => none
          | c :: rest =>
            if !isContinuation c then none
            else if 0xE0 ≤ a.toNat && a.toNat < 0xF0 then
              let code := a.toNat % 16 * 4096 + low6 b * 64 + low6 c
              if code < 0x800 || (0xD800 ≤ code && code < 0xE000) then none
              else some (Char.ofNat code, 3)
            else
              match rest with
              | [] => none
              | d :: _ =>
                let code := a.toNat % 8 * 262144 + low6 b * 4096 + low6 c * 64 + low6 d
                if !isContinuation d || a.toNat < 0xF0 || 0xF4 < a.toNat ||
                    code < 0x10000 || 0x110000 ≤ code then none
                else some (Char.ofNat code, 4)

/-- A character of a byte sequence, or a byte at which no well-formed character
starts. -/
inductive Piece where
  | char (c : Char)
  | broken (byte : UInt8)
deriving DecidableEq, Inhabited

namespace Piece

def toChar : Piece → Char
  | char c => c
  | broken _ => replacement

def bytes : Piece → List UInt8
  | char c => String.utf8EncodeChar c
  | broken byte => [byte]

def isOf (p : Char → Bool) : Piece → Bool
  | char c => p c
  | broken _ => false

end Piece

/-- The pieces of a byte sequence in front of which others stand, last first; `fuel` is a
bound on the number of bytes. -/
def piecesAfter (before : List Piece) : Nat → List UInt8 → List Piece
  | 0, _ => before.reverse
  | _, [] => before.reverse
  | fuel + 1, a :: rest =>
    match firstChar? (a :: rest) with
    | some (c, n) => piecesAfter (.char c :: before) fuel (rest.drop (n - 1))
    | none => piecesAfter (.broken a :: before) fuel rest

def pieces (bytes : List UInt8) : List Piece := piecesAfter [] bytes.length bytes

def ofPieces (ps : List Piece) : List UInt8 := ps.flatMap Piece.bytes

def chars (bytes : List UInt8) : List Char := (pieces bytes).map Piece.toChar

def ofBytes (bytes : List UInt8) : String := String.ofList (chars bytes)

def ofBytes? (bytes : List UInt8) : Option String :=
  if (pieces bytes).all (·.isOf fun _ => true) then some (ofBytes bytes) else none

def ofChars (cs : List Char) : List UInt8 := cs.flatMap String.utf8EncodeChar

def toBytes (s : String) : List UInt8 := ofChars s.toList

end ScriptTree.Text
