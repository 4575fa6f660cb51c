import ScriptTree.Number

/-!
Reading numbers from text: decimal and hexadecimal numerals with an exponent,
underscores between digits, and the names of infinity and of `NaN`.
-/

namespace ScriptTree.Number

/-- A number as it was read; a finite numeral beyond the largest double reads as an
infinity and is marked. -/
structure Reading where
  value : Number
  overflow : Bool
deriving DecidableEq, Inhabited

def digitValue? (c : Char) : Option Nat :=
  if '0' ≤ c && c ≤ '9' then some (c.toNat - 48)
  else if 'a' ≤ c && c ≤ 'f' then some (c.toNat - 87)
  else if 'A' ≤ c && c ≤ 'F' then some (c.toNat - 55)
  else none

def isDigitOf (base : Nat) (c : Char) : Bool :=
  match digitValue? c with
  | some d => d < base
  | none => false

def valueOf (base : Nat) (digits : List Char) : Nat :=
  digits.foldl (fun n c => n * base + (digitValue? c).getD 0) 0

def isDecimalDigit (c : Char) : Bool := '0' ≤ c && c ≤ '9'

def takeSign : List Char → Bool × List Char
  | '-' :: rest => (true, rest)
  | '+' :: rest => (false, rest)
  | cs => (false, cs)

/-- Whether every underscore stands between two digits, where `after` tells whether
the character before is a digit. -/
def underscoresSeparate (digit : Char → Bool) : Bool → List Char → Bool
  | _, [] => true
  | after, '_' :: rest =>
    after &&
      (match rest with
        | c :: _ => digit c
        | [] => false) &&
      underscoresSeparate digit false rest
  | _, c :: rest => underscoresSeparate digit (digit c) rest

def exponent? (cs : List Char) : Option Int :=
  let signed := takeSign cs
  if signed.2.isEmpty || !signed.2.all isDecimalDigit then none
  else
    let n : Int := valueOf 10 signed.2
    some (if signed.1 then -n else n)

def takeMantissa (base : Nat) (cs : List Char) : List Char × List Char × List Char :=
  let whole := cs.takeWhile (isDigitOf base)
  match cs.dropWhile (isDigitOf base) with
  | '.' :: rest => (whole, rest.takeWhile (isDigitOf base), rest.dropWhile (isDigitOf base))
  | rest => (whole, [], rest)

def marked (value : Number) : Reading := ⟨value, value.isInfinite⟩

def decimal? (negative : Bool) (cs : List Char) : Option Reading :=
  let (whole, fraction, rest) := takeMantissa 10 cs
  if whole.isEmpty && fraction.isEmpty then none
  else
    let read (e : Int) : Reading :=
      marked (ofDecimal negative (valueOf 10 (whole ++ fraction)) (e - fraction.length))
    match rest with
    | [] => some (read 0)
    | mark :: tail => if mark = 'e' || mark = 'E' then (exponent? tail).map read else none

def ofBinary (negative : Bool) (digits : Nat) (exponent : Int) : Number :=
  let reach := (digits.log2 : Int) + exponent
  if digits = 0 || reach < -1080 then assemble negative 0
  else if 1030 < reach then infinity negative
  else
    match exponent with
    | .ofNat k => assemble negative (nearestMagnitude (digits * Nat.pow 2 k) 1)
    | .negSucc k => assemble negative (nearestMagnitude digits (Nat.pow 2 (k + 1)))

/-- A hexadecimal numeral after its mark; the exponent may not be left out. -/
def hexadecimal? (negative : Bool) (cs : List Char) : Option Reading :=
  let (whole, fraction, rest) := takeMantissa 16 cs
  if whole.isEmpty && fraction.isEmpty then none
  else
    match rest with
    | [] => none
    | mark :: tail =>
      if mark = 'p' || mark = 'P' then
        (exponent? tail).map fun e =>
          marked (ofBinary negative (valueOf 16 (whole ++ fraction)) (e - 4 * fraction.length))
      else none

def asciiLower (c : Char) : Char := c.toLower

def read? (text : String) : Option Reading :=
  let signed := takeSign text.toList
  let name := String.ofList (signed.2.map asciiLower)
  if name = "inf" || name = "infinity" then some ⟨infinity signed.1, false⟩
  else if text.map asciiLower = "nan" then some ⟨nan, false⟩
  else
    match signed.2 with
    | '0' :: mark :: tail =>
      if mark = 'x' || mark = 'X' then
        if underscoresSeparate (isDigitOf 16) true tail then
          hexadecimal? signed.1 (tail.filter (· ≠ '_'))
        else none
      else if underscoresSeparate isDecimalDigit false signed.2 then
        decimal? signed.1 (signed.2.filter (· ≠ '_'))
      else none
    | cs =>
      if underscoresSeparate isDecimalDigit false cs then
        decimal? signed.1 (cs.filter (· ≠ '_'))
      else none

end ScriptTree.Number
