/-!
Lines of text, and white space at the ends of a text, beyond ASCII too.
-/

namespace ScriptTree.Text

def splitList (mark : Char) : List Char → List (List Char)
  | [] => [[]]
  | c :: rest =>
    if c = mark then [] :: splitList mark rest
    else
      match splitList mark rest with
      | part :: parts => (c :: part) :: parts
      | [] => [[c]]

def splitOn (mark : Char) (s : String) : List String := (splitList mark s.toList).map String.ofList

def lines (s : String) : List String := splitOn '\n' s

def replaceChar (c : Char) (text : String) (s : String) : String :=
  String.ofList (s.toList.flatMap fun d => if d = c then text.toList else [d])

def joinBreaks : List Char → List Char
  | '\r' :: '\n' :: rest => '\n' :: joinBreaks rest
  | c :: rest => c :: joinBreaks rest
  | [] => []

def startsWith (start s : String) : Bool := start.toList.isPrefixOf s.toList

def occursIn (part : List Char) : List Char → Bool
  | [] => part.isEmpty
  | c :: rest => part.isPrefixOf (c :: rest) || occursIn part rest

def contains (part s : String) : Bool := occursIn part.toList s.toList

/-- Replaces a part that is not empty wherever it stands, from the left. -/
def replaceList (part text : List Char) : Nat → List Char → List Char
  | 0, cs => cs
  | _, [] => []
  | fuel + 1, c :: rest =>
    if part.isPrefixOf (c :: rest) then
      text ++ replaceList part text fuel ((c :: rest).drop part.length)
    else c :: replaceList part text fuel rest

def replace (part text s : String) : String :=
  if part = "" then s
  else String.ofList (replaceList part.toList text.toList s.length s.toList)

/-- Characters of the Unicode property White_Space. -/
def isBlank (c : Char) : Bool :=
  let n := c.toNat
  (9 ≤ n && n ≤ 13) || n = 0x20 || n = 0x85 || n = 0xA0 || n = 0x1680 ||
    (0x2000 ≤ n && n ≤ 0x200A) || n = 0x2028 || n = 0x2029 || n = 0x202F ||
    n = 0x205F || n = 0x3000

def dropEndWhile (p : Char → Bool) (cs : List Char) : List Char :=
  (cs.reverse.dropWhile p).reverse

def trimList (cs : List Char) : List Char := dropEndWhile isBlank (cs.dropWhile isBlank)

def trim (s : String) : String := String.ofList (trimList s.toList)

def trimStart (s : String) : String := String.ofList (s.toList.dropWhile isBlank)

def trimEnd (s : String) : String := String.ofList (dropEndWhile isBlank s.toList)

def dropFinalBreaks (s : String) : String :=
  String.ofList (dropEndWhile (· = '\n') s.toList)

end ScriptTree.Text
