import ScriptTree.Number.Fixed
import ScriptTree.Number.Integer
import ScriptTree.Text.Quoted

/-!
Spans of time in nanoseconds, read and written as numbers with units.
-/

namespace ScriptTree

structure Duration where
  nanoseconds : Int
deriving DecidableEq, Inhabited

inductive DurationError where
  | invalid
  | missingUnit
  | unknownUnit
deriving DecidableEq, Inhabited

namespace DurationError

def message : DurationError → String
  | invalid => "time: invalid duration"
  | missingUnit => "time: missing unit in duration"
  | unknownUnit => "time: unknown unit"

end DurationError

namespace Duration

def zero : Duration := ⟨0⟩

def seconds (n : Int) : Duration := ⟨n * Nat.pow 10 9⟩

def unit? (name : String) : Option Nat :=
  match name with
  | "ns" => some 1
  | "us" | "µs" | "μs" => some (Nat.pow 10 3)
  | "ms" => some (Nat.pow 10 6)
  | "s" => some (Nat.pow 10 9)
  | "m" => some (60 * Nat.pow 10 9)
  | "h" => some (3600 * Nat.pow 10 9)
  | _ => none

/-- The digits after a point: the integer that they write and the power of ten that divides
it. Digits are dropped from the first one on that 63 bits have no room for. -/
def readFraction (digits : List Char) : Nat × Number :=
  let step (state : Nat × Number × Bool) (c : Char) : Nat × Number × Bool :=
    let (n, scale, isFull) := state
    let next := n * 10 + Number.valueOf 10 [c]
    if isFull || (Nat.pow 2 63 - 1) / 10 < n || Nat.pow 2 63 < next then (n, scale, true)
    else (next, scale * Number.ofNat 10, false)
  let (n, scale, _) := digits.foldl step (0, Number.ofNat 1, false)
  (n, scale)

/-- Whole nanoseconds in a fraction of a unit, as doubles reckon it. -/
def fractionOf (unit : Nat) (digits : List Char) : Nat :=
  let (n, scale) := readFraction digits
  let (numerator, denominator) := (Number.ofNat n * (Number.ofNat unit / scale)).fractionOf
  numerator / denominator

def bound : Nat := Nat.pow 2 63

def readTerms : Nat → Nat → List Char → Except DurationError Nat
  | _, total, [] => .ok total
  | 0, _, _ => .error .invalid
  | fuel + 1, total, cs => do
    let whole := cs.takeWhile Char.isDigit
    let rest := cs.dropWhile Char.isDigit
    let (fraction, rest) := match rest with
      | '.' :: more => (more.takeWhile Char.isDigit, more.dropWhile Char.isDigit)
      | rest => ([], rest)
    if bound < Number.valueOf 10 whole || (whole.isEmpty && fraction.isEmpty) then .error .invalid
    else
      let unitName := rest.takeWhile fun c => c ≠ '.' && !c.isDigit
      if unitName.isEmpty then .error .missingUnit
      else
        match unit? (String.ofList unitName) with
        | none => .error .unknownUnit
        | some unit =>
          let value := Number.valueOf 10 whole * unit + fractionOf unit fraction
          if bound < value || bound < total + value then .error .invalid
          else readTerms fuel (total + value) (rest.drop unitName.length)

/-- Reads a text such as `1h2m3.5s`; only zero needs no unit. -/
def ofText (text : String) : Except DurationError Duration :=
  let (negative, cs) := Number.takeSign text.toList
  if cs = ['0'] then .ok zero
  else if cs.isEmpty then .error .invalid
  else
    match readTerms cs.length 0 cs with
    | .error e => .error e
    | .ok n =>
      if negative then .ok ⟨-(n : Int)⟩
      else if bound ≤ n then .error .invalid
      else .ok ⟨n⟩

def decimal (n places : Nat) : String :=
  let whole := Nat.repr (n / Nat.pow 10 places)
  let digits := Nat.toDigits 10 (n % Nat.pow 10 places)
  let padded := List.replicate (places - digits.length) '0' ++ digits
  let fraction := (padded.reverse.dropWhile (· = '0')).reverse
  if fraction.isEmpty then whole else whole ++ "." ++ String.ofList fraction

/-- The largest units come first, and a part below a second has one unit. -/
def magnitudeText (n : Nat) : String :=
  if n = 0 then "0s"
  else if n < Nat.pow 10 3 then Nat.repr n ++ "ns"
  else if n < Nat.pow 10 6 then decimal n 3 ++ "µs"
  else if n < Nat.pow 10 9 then decimal n 6 ++ "ms"
  else
    let minutes := n / (60 * Nat.pow 10 9)
    let seconds := decimal (n % (60 * Nat.pow 10 9)) 9 ++ "s"
    if minutes = 0 then seconds
    else if minutes < 60 then Nat.repr minutes ++ "m" ++ seconds
    else Nat.repr (minutes / 60) ++ "h" ++ Nat.repr (minutes % 60) ++ "m" ++ seconds

def text (d : Duration) : String :=
  (if d.nanoseconds < 0 then "-" else "") ++ magnitudeText d.nanoseconds.natAbs

end Duration

end ScriptTree
