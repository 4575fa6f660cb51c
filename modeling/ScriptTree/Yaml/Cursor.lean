import ScriptTree.Yaml.Source

/-!
A place in a YAML text, and what can fail there. Lines and columns count from
zero.
-/

namespace ScriptTree.Yaml

structure Fault where
  problem : String
  contextLine : Nat := 0
  problemLine : Nat := 0
  /-- Whether the characters themselves, not their arrangement, are at fault. -/
  lexical : Bool := false
deriving DecidableEq, Inhabited

namespace Fault

/-- The line to show; nothing is known to be wrong before the second line. -/
def line (f : Fault) : Nat :=
  let known := if f.contextLine ≠ 0 then f.contextLine else f.problemLine
  if known ≠ 0 && f.lexical then known + 1 else known

def message (f : Fault) : String :=
  "yaml: " ++ (if f.line ≠ 0 then "line " ++ Nat.repr f.line ++ ": " else "") ++ f.problem

end Fault

/-! Classes of characters. -/

def isBreak (c : Char) : Bool :=
  c = '\n' || c = '\r' || c.toNat = 0x85 || c.toNat = 0x2028 || c.toNat = 0x2029

def isGap (c : Char) : Bool := c = ' ' || c = '\t'

def isWordChar (c : Char) : Bool := c.isAlphanum || c = '_' || c = '-'

structure Cursor where
  rest : List Char
  index : Nat := 0
  line : Nat := 0
  column : Nat := 0
  /-- Line breaks since the last character that is not blank. -/
  breaks : Nat := 0
  /-- Number of characters that have been read. -/
  held : Nat := 0
  /-- Sizes of the batches that have not been read. -/
  batches : List Nat := []
  damage : Option String := none
  /-- Whether the characters that were in memory at the last reading started with a byte
  order mark. -/
  marked : Bool := false
  size : Nat := 0
deriving Inhabited

namespace Cursor

def start (s : Source) : Cursor :=
  { rest := s.characters, batches := s.batches, damage := s.damage, size := s.characters.length }

def looksAt (c : Cursor) (ahead : Nat) (char : Char) : Bool := c.rest[ahead]? == some char

def atEnd (c : Cursor) : Bool := c.rest.isEmpty

def gapAt (c : Cursor) (ahead : Nat) : Bool := c.rest[ahead]?.any isGap

def breakAt (c : Cursor) (ahead : Nat) : Bool := c.rest[ahead]?.any isBreak

def endsWord (c : Cursor) (ahead : Nat) : Bool :=
  match c.rest[ahead]? with
  | none => true
  | some x => isGap x || isBreak x

def endsLine (c : Cursor) : Bool := c.atEnd || c.breakAt 0

/-- Whether a document marker made of a character stands at the start of this line. -/
def marker (c : Cursor) (char : Char) : Bool :=
  c.column = 0 && c.looksAt 0 char && c.looksAt 1 char && c.looksAt 2 char && c.endsWord 3

def step (c : Cursor) : Cursor :=
  { c with
    rest := c.rest.drop 1
    index := c.index + 1
    column := c.column + 1
    breaks := if c.gapAt 0 then c.breaks else 0 }

def nextLine (c : Cursor) : Cursor :=
  let after (rest : List Char) (n : Nat) : Cursor :=
    { c with
      rest := rest, index := c.index + n, line := c.line + 1, column := 0, breaks := c.breaks + 1 }
  match c.rest with
  | '\r' :: '\n' :: rest => after rest 2
  | x :: rest => if isBreak x then after rest 1 else c
  | [] => c

def breakText (c : Cursor) : List Char :=
  match c.rest with
  | x :: _ =>
    if x = '\n' || x = '\r' || x.toNat = 0x85 then ['\n'] else if isBreak x then [x] else []
  | [] => []

/-- The number of characters held once so many are wanted, with the batches left. At the
end of the text its end counts as one more character. -/
def hold (damage : Option String) (wanted : Nat) :
    Nat → List Nat → Except Fault (Nat × List Nat)
  | held, [] =>
    match damage with
    | some problem => .error { problem := problem }
    | none => .ok (held + 1, [])
  | held, n :: batches =>
    if held + n < wanted then hold damage wanted (held + n) batches else .ok (held + n, batches)

end Cursor

/-! Reading at a place. -/

abbrev Scan := StateT Cursor (Except Fault)

namespace Scan

def need (n : Nat) : Scan Unit := do
  let c ← get
  if c.held < c.index + n then
    let (held, batches) ← (Cursor.hold c.damage (c.index + n) c.held c.batches :
      Except Fault (Nat × List Nat))
    set { c with
      held := held, batches := batches, marked := c.looksAt 0 (Char.ofNat 0xFEFF) }

def fail (start : Nat) (problem : String) : Scan α := do
  throw ⟨problem, start, (← get).line, true⟩

def skip : Scan Unit := modify Cursor.step

def skipMany : Nat → Scan Unit
  | 0 => pure ()
  | n + 1 => do
    skip
    skipMany n

def skipBreak : Scan Unit := do
  need 2
  modify Cursor.nextLine

def readBreak : Scan (List Char) := do
  need 2
  let text := (← get).breakText
  modify Cursor.nextLine
  return text

/-- Moves over the characters of a class, and gives them after others, last first. -/
def takeFrom (p : Char → Bool) : Nat → List Char → Scan (List Char)
  | 0, before => return before
  | fuel + 1, before => do
    match (← get).rest with
    | [] => return before
    | x :: _ =>
      if p x then
        skip
        need 1
        takeFrom p fuel (x :: before)
      else return before

/-- Moves over the characters of a class, which has to hold no line break. -/
def takeWhile (p : Char → Bool) : Scan (List Char) := do
  need 1
  return (← takeFrom p (← get).size []).reverse

def skipWhile (p : Char → Bool) : Scan Unit := do
  let _ ← takeWhile p

/-! Comments. -/

/-- Moves to the end of the line on which the character numbered `place` stands. -/
def skipComment (place : Nat) : Nat → Scan Unit
  | 0 => pure ()
  | fuel + 1 => do
    need 1
    let c ← get
    if !c.endsLine then
      skip
      skipComment place fuel
    else if c.index < place then
      skipBreak
      skipComment place fuel

/-- How far a comment may be from what it belongs to. -/
def commentReach : Nat := 512

/-- How far ahead a comment starts, if only characters of a class stand before it. -/
def seekComment (between : Char → Bool) : Nat → Nat → Scan (Option Nat)
  | 0, _ => return none
  | fuel + 1, ahead => do
    need (ahead + 1)
    match (← get).rest[ahead]? with
    | none => return none
    | some x =>
      if between x then seekComment between fuel (ahead + 1)
      else return if x = '#' then some ahead else none

def skipLineComment : Scan Unit := do
  let c ← get
  if c.breaks = 0 then
    match ← seekComment isGap commentReach 0 with
    | some ahead => skipComment (c.index + ahead) (c.size + 1)
    | none => pure ()

/-- Skips the comment that starts at the character numbered `place`, and the comments on
the lines below it. -/
def skipComments : Nat → Nat → Scan Unit
  | 0, _ => pure ()
  | fuel + 1, place => do
    skipComment place ((← get).size + 1)
    match ← seekComment (fun x => isGap x || x = '\n' || x = '\r') commentReach 0 with
    | some ahead => skipComments fuel ((← get).index + ahead)
    | none => pure ()

end Scan

end ScriptTree.Yaml
