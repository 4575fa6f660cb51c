import ScriptTree.Number.Reader

/-!
Reading integers whose base is told by the start of the numeral, within the range of
machine words.
-/

namespace ScriptTree.Number

inductive IntegerError where
  | malformed
  /-- The nearest word is given. -/
  | outOfRange (nearest : Int)
deriving DecidableEq, Inhabited

def magnitude? (base : Nat) (cs : List Char) : Option Nat :=
  if cs.isEmpty || !cs.all (isDigitOf base) then none else some (valueOf base cs)

def baseOf : List Char → Nat × List Char
  | '0' :: mark :: rest =>
    if mark = 'x' || mark = 'X' then (16, rest)
    else if mark = 'b' || mark = 'B' then (2, rest)
    else if mark = 'o' || mark = 'O' then (8, rest)
    else (8, mark :: rest)
  | cs => (10, cs)

/-- A natural number whose base is told by its start; underscores may separate the
digits. -/
def natural? (cs : List Char) : Option Nat :=
  let (base, digits) := baseOf cs
  if cs.contains '_' then
    let marked := base ≠ 10
    if underscoresSeparate (isDigitOf 16) marked digits then
      magnitude? base (digits.filter (· ≠ '_'))
    else none
  else magnitude? base digits

def signed (bits : Nat) (text : String) : Except IntegerError Int :=
  let (negative, cs) := takeSign text.toList
  match natural? cs with
  | none => .error .malformed
  | some n =>
    let bound : Nat := Nat.pow 2 (bits - 1)
    if negative then
      if n ≤ bound then .ok (-(n : Int)) else .error (.outOfRange (-(bound : Int)))
    else if n < bound then .ok n
    else .error (.outOfRange ((bound : Int) - 1))

def unsigned (bits : Nat) (text : String) : Except IntegerError Nat :=
  match natural? text.toList with
  | none => .error .malformed
  | some n => if n < Nat.pow 2 bits then .ok n else .error (.outOfRange (Nat.pow 2 bits - 1))

def signedIn (base bits : Nat) (text : String) : Except IntegerError Int :=
  let (negative, cs) := takeSign text.toList
  match magnitude? base cs with
  | none => .error .malformed
  | some n =>
    let bound : Nat := Nat.pow 2 (bits - 1)
    if negative then
      if n ≤ bound then .ok (-(n : Int)) else .error (.outOfRange (-(bound : Int)))
    else if n < bound then .ok n
    else .error (.outOfRange ((bound : Int) - 1))

def signedDecimal (bits : Nat) (text : String) : Except IntegerError Int := signedIn 10 bits text

end ScriptTree.Number
