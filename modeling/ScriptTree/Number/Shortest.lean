import ScriptTree.Number

/-!
The shortest decimal that reads back as a given finite number, and of the
shortest ones the nearest.
-/

namespace ScriptTree

structure Decimal where
  digits : Nat
  exponent : Int
deriving DecidableEq, Inhabited

namespace Decimal

def trimZeros : Nat → Decimal → Decimal
  | 0, d => d
  | fuel + 1, d =>
    if d.digits % 10 = 0 && d.digits ≠ 0 then trimZeros fuel ⟨d.digits / 10, d.exponent + 1⟩
    else d

def normalize (d : Decimal) : Decimal :=
  if d.digits = 0 then ⟨0, 0⟩ else d.trimZeros (Number.digitCount d.digits)

end Decimal

namespace Number

/-! A positive finite number `m * 2 ^ q` stands on the grid of quarters of its
last binary place: the value is `4 * m` quarters and the decimals that read back
as it lie between `lower` and `upper`. -/

structure Interval where
  lower : Nat
  value : Nat
  upper : Nat
  /-- All three are over this denominator. -/
  denominator : Nat
  /-- Whether the two ends read back as the value. -/
  closed : Bool

/-- The decimals that round to a positive finite number. Below a power of two the
spacing halves, so the lower end is nearer there. -/
def interval (x : Number) : Interval :=
  let m := x.significand
  let q := x.binaryExponent - 2
  let below := if x.fraction = 0 && 1 < x.exponentField then 1 else 2
  match q with
  | .ofNat k => ⟨(4 * m - below) * Nat.pow 2 k, 4 * m * Nat.pow 2 k, (4 * m + 2) * Nat.pow 2 k, 1, m % 2 = 0⟩
  | .negSucc k => ⟨4 * m - below, 4 * m, 4 * m + 2, Nat.pow 2 (k + 1), m % 2 = 0⟩

namespace Interval

def contains (i : Interval) (digits : Nat) (exponent : Int) : Bool :=
  let scaled :=
    match exponent with
    | .ofNat k => (digits * Nat.pow 10 k * i.denominator, 1)
    | .negSucc k => (digits * i.denominator, Nat.pow 10 (k + 1))
  if i.closed then i.lower * scaled.2 ≤ scaled.1 && scaled.1 ≤ i.upper * scaled.2
  else i.lower * scaled.2 < scaled.1 && scaled.1 < i.upper * scaled.2

def inUnits (i : Interval) (exponent : Int) : Nat × Nat :=
  match exponent with
  | .ofNat k => (i.value, i.denominator * Nat.pow 10 k)
  | .negSucc k => (i.value * Nat.pow 10 (k + 1), i.denominator)

/-- The multiple of `10 ^ exponent` that reads back as the value: the nearer of
the value's two neighbours on that grid, of two equally near ones the even. -/
def onGrid? (i : Interval) (exponent : Int) : Option Decimal :=
  let units := i.inUnits exponent
  let floor := units.1 / units.2
  match i.contains floor exponent, i.contains (floor + 1) exponent with
  | true, true => some ⟨roundHalfEven units.1 units.2, exponent⟩
  | true, false => some ⟨floor, exponent⟩
  | false, true => some ⟨floor + 1, exponent⟩
  | false, false => none

def below (i : Interval) (exponent : Int) : Bool :=
  let units := i.inUnits exponent
  units.1 < units.2

end Interval

/-- The least `k` for which a positive finite number is below `10 ^ k`. -/
def decimalOrder (x : Number) : Int :=
  let i := x.interval
  let binary := (x.significand.log2 : Int) + x.binaryExponent
  let guess := binary * 30103 / 100000
  if i.below guess then (if i.below (guess - 1) then guess - 1 else guess)
  else if i.below (guess + 1) then guess + 1
  else guess + 2

/-- The first grid, from coarse to fine, with a decimal that reads back. -/
def shortestFrom (i : Interval) (order : Int) : Nat → Nat → Decimal
  | 0, digits => (i.onGrid? (order - digits)).getD ⟨i.value / i.denominator, 0⟩
  | fuel + 1, digits =>
    match i.onGrid? (order - digits) with
    | some d => d
    | none => shortestFrom i order fuel (digits + 1)

def shortest (x : Number) : Decimal :=
  if x.isZero then ⟨0, 0⟩
  else (shortestFrom x.interval x.decimalOrder 17 1).normalize

end Number

end ScriptTree
