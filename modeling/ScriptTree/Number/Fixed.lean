import ScriptTree.Number.Layout

/-!
Numbers as fractions: with a fixed number of decimal places, and the exact remainder of a division.
-/

namespace ScriptTree.Number

def fractionOf (x : Number) : Nat × Nat :=
  match x.binaryExponent with
  | .ofNat k => (x.significand * Nat.pow 2 k, 1)
  | .negSucc k => (x.significand, Nat.pow 2 (k + 1))

def pointed (digits places : Nat) : String :=
  let text := Nat.toDigits 10 digits
  let text := List.replicate (places + 1 - text.length) '0' ++ text
  let cut := text.length - places
  String.ofList (text.take cut ++ '.' :: text.drop cut)

def fixed (places : Nat) (x : Number) : String :=
  let (n, d) := x.fractionOf
  (if x.signbit then "-" else "") ++ pointed (roundHalfEven (n * Nat.pow 10 places) d) places

def scientificDigits (places : Nat) (x : Number) : Nat × Int :=
  if x.isZero then (0, 0)
  else
    let (n, d) := x.fractionOf
    let order := x.decimalOrder - 1
    let scale : Int := (places : Int) - order
    let digits :=
      match scale with
      | .ofNat k => roundHalfEven (n * Nat.pow 10 k) d
      | .negSucc k => roundHalfEven n (d * Nat.pow 10 (k + 1))
    if Nat.pow 10 (places + 1) ≤ digits then (digits / 10, order + 1) else (digits, order)

def fixedScientific (places : Nat) (mark : String) (x : Number) : String :=
  let (digits, order) := x.scientificDigits places
  (if x.signbit then "-" else "") ++ pointed digits places ++ mark ++
    (if order < 0 then "-" else "+") ++ Decimal.exponentDigits 2 order.natAbs

/-- What is left of a number after a whole number of subtractions of another; it has the
sign of the first. -/
def remainder (x y : Number) : Number :=
  if x.isNaN || y.isNaN || x.isInfinite || y.isZero then nan
  else if y.isInfinite then x
  else
    let (a, b) := x.fractionOf
    let (c, d) := y.fractionOf
    let left := (a * d) % (c * b)
    assemble x.signbit (if left = 0 then 0 else nearestMagnitude left (b * d))

def flooredRemainder (x y : Number) : Number :=
  let r := remainder x y
  let isNegative (z : Number) : Bool := z.signbit && !z.isZero && !z.isNaN
  if isNegative x ≠ isNegative y && !r.isZero then r + y else r

end ScriptTree.Number
