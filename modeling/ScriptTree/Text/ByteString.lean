import ScriptTree.Text.Bytes
import ScriptTree.Text.Casing
import ScriptTree.Text.Quoted

/-!
Texts that are carried as bytes. What a program was given may be malformed, and is then passed on
as it was; a character string stands for the bytes of its encoding. A malformed byte becomes the
replacement character where a text is changed, as where the case of its letters is.
-/

namespace ScriptTree

abbrev ByteString := List UInt8

namespace ByteString

instance : Coe String ByteString := ⟨Text.toBytes⟩

def text (s : ByteString) : String := Text.ofBytes s

def text? (s : ByteString) : Option String := Text.ofBytes? s

/-- Escape of one piece inside double quotes; a malformed byte is shown by its number. -/
def escape : Text.Piece → List Char
  | .char c => Text.Quoted.escape c
  | .broken byte => '\\' :: 'x' :: Text.Quoted.hex 2 byte.toNat

def quote (s : ByteString) : String :=
  String.ofList ('"' :: (Text.pieces s).flatMap escape ++ ['"'])

def mapChars (f : Char → Char) (s : ByteString) : ByteString :=
  Text.ofChars ((Text.chars s).map f)

def lower (s : ByteString) : ByteString := mapChars Text.lowerChar s

def upper (s : ByteString) : ByteString := mapChars Text.upperChar s

def capitalize (s : ByteString) : ByteString :=
  match Text.chars s with
  | [] => []
  | c :: rest => Text.ofChars (Text.titleChar c :: rest.map Text.lowerChar)

/-- Every character in title case that does not follow one with a case, and the others in
lower case. -/
def titled : Bool → List Char → List Char
  | _, [] => []
  | after, c :: rest =>
    let c := if after then Text.lowerChar c else Text.titleChar c
    c :: titled (Text.isCased c) rest

def title (s : ByteString) : ByteString := Text.ofChars (titled false (Text.chars s))

/-- Whether there are characters, all of them of a class. -/
def allChars (p : Char → Bool) (s : ByteString) : Bool :=
  !s.isEmpty && (Text.chars s).all p

/-- Whether there is a character with a case and a change of case keeps the text. -/
def isOfCase (change : ByteString → ByteString) (s : ByteString) : Bool :=
  (Text.chars s).any Text.isCased && s == change s

/-- Whether capital letters stand only at the starts of words, and small ones only after
a letter with a case. The answer is empty where that fails. -/
def titleStarts : Bool → Bool → List Char → Option Bool
  | cased, _, [] => some cased
  | cased, after, c :: rest =>
    if ('A' ≤ c && c ≤ 'Z') || Text.isTitleLetter c then
      if after then none else titleStarts true true rest
    else if Text.isLowerLetter c then
      if after then titleStarts true true rest else none
    else if Text.isUpperLetter c then none
    else titleStarts cased false rest

def isTitled (s : ByteString) : Bool := (titleStarts false false (Text.chars s)).getD false

end ByteString

end ScriptTree
