import ScriptTree.Reserved.Dialect

/-!
The reserved words of one edition: those reserved everywhere, and those reserved
only in strict mode code. A word may stand in both lists until the edition is
settled.
-/

namespace ScriptTree.Reserved

structure Edition where
  dialect : Dialect
  name : String
  aliases : List String := []
  words : List String := []
  strictWords : List String := []
deriving DecidableEq, Inhabited

def insertAll (held : List String) (added : List String) : List String :=
  added.foldl (fun held w => if w ∈ held then held else held ++ [w]) held

def removeAll (held : List String) (dropped : List String) : List String :=
  held.filter (fun w => !(dropped.contains w))

def sorted (words : List String) : List String :=
  words.mergeSort (fun a b => decide (a ≤ b))

namespace Edition

/-- Words are compared letter by letter, as names of the language are. -/
def reserves (e : Edition) (word : String) (strict : Bool) : Bool :=
  e.words.contains word || (strict && e.strictWords.contains word)

def listing (e : Edition) (strict : Bool) : List String :=
  sorted (if strict then e.words ++ e.strictWords else e.words)

def strictOnly (e : Edition) : List String := sorted e.strictWords

/-! Building an edition. -/

def blank (dialect : Dialect) (name : String) : Edition := ⟨dialect, name, [], [], []⟩

def extend (e base : Edition) : Edition :=
  { e with
    words := insertAll e.words base.words
    strictWords := insertAll e.strictWords base.strictWords }

def addWords (e : Edition) (words : List String) : Edition :=
  { e with words := insertAll e.words words }

def addStrictWords (e : Edition) (words : List String) : Edition :=
  { e with strictWords := insertAll e.strictWords words }

def drop (e : Edition) (words : List String) : Edition :=
  { e with words := removeAll e.words words, strictWords := removeAll e.strictWords words }

def addAliases (e : Edition) (names : List String) : Edition :=
  { e with aliases := e.aliases ++ names }

/-- A word reserved everywhere is not kept among the strict ones. -/
def settle (e : Edition) : Edition :=
  { e with strictWords := removeAll e.strictWords e.words }

end Edition

/-! The built-in editions. -/

def coreKeywords : List String := [
  "break", "case", "catch", "continue", "default", "delete", "do",
  "else", "finally", "for", "function", "if", "in", "instanceof",
  "new", "return", "switch", "this", "throw", "try", "typeof", "var",
  "void", "while", "with"]

def literals : List String := ["null", "true", "false"]

/-- The third edition has no strict mode and many words held for the future. -/
def editionES3 : Edition :=
  (Edition.blank .es3 "es3").addAliases ["3", "ecmascript3"]
    |>.addWords coreKeywords
    |>.addWords literals
    |>.addWords [
      "abstract", "boolean", "byte", "char", "class", "const",
      "debugger", "double", "enum", "export", "extends", "final",
      "float", "goto", "implements", "import", "int", "interface",
      "long", "native", "package", "private", "protected", "public",
      "short", "static", "super", "synchronized", "throws",
      "transient", "volatile"]
    |>.settle

def editionES5 : Edition :=
  (Edition.blank .es5 "es5").addAliases ["5", "ecmascript5"]
    |>.addWords coreKeywords
    |>.addWords literals
    |>.addWords ["debugger"]
    |>.addWords ["class", "const", "enum", "export", "extends", "import", "super"]
    |>.addStrictWords [
      "implements", "interface", "let", "package", "private",
      "protected", "public", "static", "yield"]
    |>.settle

def editionES6 : Edition :=
  (Edition.blank .es6 "es6").addAliases ["6", "es2015", "ecmascript6"]
    |>.extend editionES5
    |>.addWords ["await"]
    |>.settle

end ScriptTree.Reserved
