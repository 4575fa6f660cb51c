import ScriptTree.Text.ByteString
import ScriptTree.Text.Lines

/-!
Finding, splitting and replacing parts of texts that are carried as bytes. Where a text is
taken apart by characters, a malformed byte counts as one.
-/

namespace ScriptTree.ByteString

def indexFrom? (part : ByteString) : Nat → ByteString → Option Nat
  | i, [] => if part.isEmpty then some i else none
  | i, b :: rest =>
    if part.isPrefixOf (b :: rest) then some i else indexFrom? part (i + 1) rest

def indexOf? (part s : ByteString) : Option Nat := indexFrom? part 0 s

def lastIndexOf? (part s : ByteString) : Option Nat :=
  (indexOf? part.reverse s.reverse).map fun i => s.length - i - part.length

def isIn (part s : ByteString) : Bool := (indexOf? part s).isSome

/-- Splits at a separator that is not empty, into at most `limit + 1` parts; `fuel` is more
than the number of bytes. -/
def splitUpTo (separator : ByteString) : Nat → Nat → ByteString → List ByteString
  | 0, _, s => [s]
  | _, 0, s => [s]
  | fuel + 1, limit + 1, s =>
    match indexOf? separator s with
    | some i => s.take i :: splitUpTo separator fuel limit (s.drop (i + separator.length))
    | none => [s]

def split (separator : ByteString) (limit : Option Nat) (s : ByteString) : List ByteString :=
  let bound := s.length + 1
  splitUpTo separator bound (min (limit.getD bound) bound) s

def join (separator : ByteString) (parts : List ByteString) : ByteString :=
  (parts.intersperse separator).flatten

def splitLast (separator : ByteString) (limit : Option Nat) (s : ByteString) : List ByteString :=
  let parts := split separator none s
  match limit with
  | none => parts
  | some n =>
    let excess := parts.length - n
    if excess = 0 then parts else join separator (parts.take excess) :: parts.drop excess

/-- How often a part occurs without overlap; nothing occurs around every character. -/
def count (part s : ByteString) : Nat :=
  if part.isEmpty then (Text.pieces s).length + 1 else (split part none s).length - 1

def interleave (new : ByteString) : Nat → List Text.Piece → ByteString
  | 0, ps => Text.ofPieces ps
  | _ + 1, [] => new
  | n + 1, p :: rest => new ++ p.bytes ++ interleave new n rest

def replace (old new : ByteString) (limit : Option Nat) (s : ByteString) : ByteString :=
  if old.isEmpty then
    let ps := Text.pieces s
    interleave new (min (limit.getD (ps.length + 1)) (ps.length + 1)) ps
  else join new (split old limit s)

/-- The parts that end with a line feed, and the rest. -/
def splitLines (s : ByteString) : List ByteString :=
  match split "\n" none s with
  | [] => []
  | first :: rest => lines first rest
where
  lines (line : ByteString) : List ByteString → List ByteString
    | [] => if line.isEmpty then [] else [line]
    | next :: rest => (line ++ "\n") :: lines next rest

/-! Taking texts apart by characters. -/

def trimStart (p : Char → Bool) (s : ByteString) : ByteString :=
  Text.ofPieces ((Text.pieces s).dropWhile fun c => p c.toChar)

def trimEnd (p : Char → Bool) (s : ByteString) : ByteString :=
  Text.ofPieces ((Text.pieces s).reverse.dropWhile fun c => p c.toChar).reverse

/-- Words between blanks in a list of pieces. The last word of a limited number runs to the
end. -/
def wordsOf (limit : Option Nat) : Nat → List Text.Piece → List (List Text.Piece)
  | 0, _ => []
  | fuel + 1, ps =>
    let isBlank (p : Text.Piece) := Text.isBlank p.toChar
    match ps.dropWhile isBlank with
    | [] => []
    | ps =>
      let after := ps.dropWhile (!isBlank ·)
      if limit = some 0 && !after.isEmpty then [ps]
      else ps.takeWhile (!isBlank ·) :: wordsOf (limit.map (· - 1)) fuel after

def words (limit : Option Nat) (s : ByteString) : List ByteString :=
  let ps := Text.pieces s
  (wordsOf limit (ps.length + 1) ps).map Text.ofPieces

/-- Words from the end; the first of a limited number runs to the start. -/
def lastWords (limit : Option Nat) (s : ByteString) : List ByteString :=
  let ps := (Text.pieces s).reverse
  ((wordsOf limit (ps.length + 1) ps).map fun word => Text.ofPieces word.reverse).reverse

end ScriptTree.ByteString
