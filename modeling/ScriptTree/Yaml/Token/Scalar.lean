import ScriptTree.Number.Reader
import ScriptTree.Yaml.Cursor

/-!
Scalars of a YAML text: plain and quoted ones, which may run over several lines that
are folded, and block scalars, whose indentation is dropped. Text is gathered with its
last character first.
-/

namespace ScriptTree.Yaml

open Scan

/-! Blanks and line breaks between two words of a scalar. -/

structure Gap where
  spaces : List Char := []
  /-- Whether the line ended in between. -/
  broken : Bool := false
  first : List Char := []
  more : List Char := []

namespace Gap

/-- What a gap leaves in the scalar: blanks stay, a single line break becomes a space
and of several line breaks the first is dropped. -/
def text (g : Gap) : List Char :=
  if g.broken then
    if g.first = ['\n'] then (if g.more.isEmpty then [' '] else g.more)
    else g.more ++ g.first
  else g.spaces

/-- Reads a gap. In a plain scalar a tab may not stand in the indentation of a new
line, which is checked by `tabAllowed`. -/
def read (start : Nat) (tabAllowed : Cursor → Bool) : Nat → Gap → Scan Gap
  | 0, g => return g
  | fuel + 1, g => do
    let c ← get
    match c.rest with
    | [] => return g
    | x :: _ =>
      if isGap x then
        if g.broken && x = '\t' && !tabAllowed c then
          fail start "found a tab character that violates indentation"
        skip
        need 1
        read start tabAllowed fuel (if g.broken then g else { g with spaces := x :: g.spaces })
      else if isBreak x then
        let text ← readBreak
        need 1
        read start tabAllowed fuel
          (if g.broken then { g with more := text ++ g.more }
          else { g with spaces := [], broken := true, first := text })
      else return g

end Gap

/-! Plain scalars. -/

def endsPlainInFlow (x : Char) : Bool :=
  x = ',' || x = '?' || x = '[' || x = ']' || x = '\x7b' || x = '\x7d'

def plainWord (flow : Bool) : Nat → List Char → Scan (List Char)
  | 0, word => return word
  | fuel + 1, word => do
    let c ← get
    match c.rest with
    | [] => return word
    | x :: _ =>
      if isGap x || isBreak x || (x = ':' && c.endsWord 1) || (flow && endsPlainInFlow x) then
        return word
      else
        skip
        need 2
        plainWord flow fuel (x :: word)

structure Plain where
  text : List Char := []
  /-- Whether the scalar ended with a line. -/
  broken : Bool := false

/-- Reads words and gaps of a plain scalar; `pending` is the gap before the next
word. -/
def plainFrom (start : Nat) (flow : Bool) (indent : Int) :
    Nat → List Char → Gap → Scan Plain
  | 0, text, pending => return ⟨text, pending.broken⟩
  | fuel + 1, text, pending => do
    need 4
    let c ← get
    if c.marker '-' || c.marker '.' || c.looksAt 0 '#' then return ⟨text, pending.broken⟩
    let word ← plainWord flow c.size []
    let text := if word.isEmpty then text else word ++ pending.text ++ text
    let pending := if word.isEmpty then pending else {}
    let c ← get
    if !(c.gapAt 0 || c.breakAt 0) then return ⟨text, pending.broken⟩
    need 1
    let pending ← pending.read start (fun c => indent ≤ c.column) (c.size + 1)
    if !flow && ((← get).column : Int) < indent then return ⟨text, pending.broken⟩
    plainFrom start flow indent fuel text pending

def plainScalar (flow : Bool) (indent : Int) : Scan Plain := do
  let c ← get
  let p ← plainFrom c.line flow indent (c.size + 1) [] {}
  return { p with text := p.text.reverse }

/-! Quoted scalars. -/

def quotedEscape? (x : Char) : Option Char :=
  if x = '0' then some (Char.ofNat 0)
  else if x = 'a' then some (Char.ofNat 7)
  else if x = 'b' then some (Char.ofNat 8)
  else if x = 't' || x = '\t' then some '\t'
  else if x = 'n' then some '\n'
  else if x = 'v' then some (Char.ofNat 11)
  else if x = 'f' then some (Char.ofNat 12)
  else if x = 'r' then some '\r'
  else if x = 'e' then some (Char.ofNat 27)
  else if x = ' ' || x = '"' || x = '\'' || x = '\\' then some x
  else if x = 'N' then some (Char.ofNat 0x85)
  else if x = '_' then some (Char.ofNat 0xA0)
  else if x = 'L' then some (Char.ofNat 0x2028)
  else if x = 'P' then some (Char.ofNat 0x2029)
  else none

def escapeWidth? (x : Char) : Option Nat :=
  if x = 'x' then some 2 else if x = 'u' then some 4 else if x = 'U' then some 8 else none

def quotedEscape (start : Nat) : Scan Char := do
  let mark := (← get).rest[1]?
  match mark.bind quotedEscape?, mark.bind escapeWidth? with
  | some x, _ =>
    skipMany 2
    return x
  | none, some width =>
    skipMany 2
    need width
    let digits := (← get).rest.take width
    if digits.length < width || !digits.all (Number.isDigitOf 16) then
      fail start "did not find expected hexdecimal number"
    let code := Number.valueOf 16 digits
    if !code.isValidChar then fail start "found invalid Unicode character escape code"
    skipMany width
    return Char.ofNat code
  | none, none => fail start "found unknown escape character"

/-- The characters up to the next gap or the closing quote, and whether an escaped
line break ended them. -/
def quotedWord (start : Nat) (single : Bool) : Nat → List Char → Scan (List Char × Bool)
  | 0, text => return (text, false)
  | fuel + 1, text => do
    let c ← get
    match c.rest with
    | [] => return (text, false)
    | x :: _ =>
      if isGap x || isBreak x then return (text, false)
      else if single && x = '\'' then
        if c.looksAt 1 '\'' then
          skipMany 2
          need 2
          quotedWord start single fuel ('\'' :: text)
        else return (text, false)
      else if !single && x = '"' then return (text, false)
      else if !single && x = '\\' then
        if c.breakAt 1 then
          need 3
          skip
          skipBreak
          return (text, true)
        else
          let y ← quotedEscape start
          need 2
          quotedWord start single fuel (y :: text)
      else
        skip
        need 2
        quotedWord start single fuel (x :: text)

def quotedFrom (start : Nat) (single : Bool) : Nat → List Char → Scan (List Char)
  | 0, _ => fail start "found unexpected end of stream"
  | fuel + 1, text => do
    need 4
    let c ← get
    if c.marker '-' || c.marker '.' then fail start "found unexpected document indicator"
    if c.atEnd then fail start "found unexpected end of stream"
    let (text, escaped) ← quotedWord start single (c.size + 1) text
    need 1
    if (← get).looksAt 0 (if single then '\'' else '"') then
      skip
      return text
    let gap : Gap := { broken := escaped }
    let gap ← gap.read start (fun _ => true) (c.size + 1)
    quotedFrom start single fuel (gap.text ++ text)

def quotedScalar (single : Bool) : Scan (List Char) := do
  let c ← get
  skip
  return (← quotedFrom c.line single (c.size + 2) []).reverse

/-! Block scalars. -/

inductive Chomping where
  | strip
  | clip
  | keep
deriving DecidableEq

structure BlockHeader where
  chomping : Chomping := .clip
  increment : Nat := 0

def chomping? : Scan (Option Chomping) := do
  need 1
  let c ← get
  if c.looksAt 0 '+' then
    skip
    return some .keep
  else if c.looksAt 0 '-' then
    skip
    return some .strip
  else return none

def increment? (start : Nat) : Scan (Option Nat) := do
  need 1
  match (← get).rest.head? with
  | some x =>
    if x = '0' then fail start "found an indentation indicator equal to 0"
    else if Number.isDecimalDigit x then
      skip
      return some (x.toNat - 48)
    else return none
  | none => return none

/-- The marks after the indicator of a block scalar, in either order. -/
def blockHeader (start : Nat) : Scan BlockHeader := do
  match ← chomping? with
  | some chomping => return ⟨chomping, (← increment? start).getD 0⟩
  | none =>
    match ← increment? start with
    | some n => return ⟨(← chomping?).getD .clip, n⟩
    | none => return {}

/-- Moves over the spaces of an indentation, up to a column if that is not zero. -/
def skipIndent (indent : Nat) : Nat → Scan Unit
  | 0 => pure ()
  | fuel + 1 => do
    let c ← get
    if (indent = 0 || c.column < indent) && c.looksAt 0 ' ' then
      skip
      need 1
      skipIndent indent fuel

/-- Skips indentation and empty lines, and gives the line breaks of the latter with
the widest indentation seen. An indentation of zero is not known yet. -/
def blockBreaks (start indent : Nat) : Nat → Nat → List Char → Scan (Nat × List Char)
  | 0, widest, breaks => return (widest, breaks)
  | fuel + 1, widest, breaks => do
    need 1
    skipIndent indent ((← get).size + 1)
    let c ← get
    let widest := max widest c.column
    if (indent = 0 || c.column < indent) && c.looksAt 0 '\t' then
      fail start "found a tab character where an indentation space is expected"
    if c.breakAt 0 then
      let text ← readBreak
      blockBreaks start indent fuel widest (text ++ breaks)
    else return (widest, breaks)

structure BlockLines where
  text : List Char := []
  /-- The line break after the last line. -/
  lead : List Char := []
  /-- Line breaks of the empty lines after it. -/
  trail : List Char := []
  /-- Whether the last line starts with a blank. -/
  indented : Bool := false

namespace BlockLines

/-- The text so far with the line breaks before a next line; lines of folded text are
joined by a space unless one of them starts with a blank. -/
def joined (b : BlockLines) (literal indented : Bool) : List Char :=
  if !literal && !b.indented && !indented && b.lead = ['\n'] then
    b.trail ++ (if b.trail.isEmpty then [' '] else []) ++ b.text
  else b.trail ++ b.lead ++ b.text

def chomp (b : BlockLines) : Chomping → List Char
  | .strip => b.text
  | .clip => b.lead ++ b.text
  | .keep => b.trail ++ b.lead ++ b.text

end BlockLines

def blockLines (start : Nat) (literal : Bool) (indent : Nat) :
    Nat → BlockLines → Scan BlockLines
  | 0, b => return b
  | fuel + 1, b => do
    let c ← get
    if c.column ≠ indent || c.atEnd then return b
    let indented := c.gapAt 0
    let text ← takeFrom (fun x => !isBreak x) c.size (b.joined literal indented)
    let lead ← readBreak
    let (_, trail) ← blockBreaks start indent (c.size + 1) 0 []
    blockLines start literal indent fuel ⟨text, lead, trail, indented⟩

def blockScalar (literal : Bool) (parent : Int) : Scan (List Char) := do
  let c ← get
  let start := c.line
  let fuel := c.size + 1
  skip
  let header ← blockHeader start
  skipWhile isGap
  if (← get).looksAt 0 '#' then skipWhile (fun x => !isBreak x)
  if !(← get).endsLine then fail start "did not find expected comment or line break"
  if (← get).breakAt 0 then skipBreak
  let given : Nat :=
    if header.increment = 0 then 0
    else ((if 0 ≤ parent then parent else 0) + header.increment).toNat
  let (widest, breaks) ← blockBreaks start given fuel 0 []
  let indent := if given ≠ 0 then given else max (max widest (parent + 1).toNat) 1
  need 1
  let lines ← blockLines start literal indent fuel { trail := breaks }
  return (lines.chomp header.chomping).reverse

end ScriptTree.Yaml
