/-!
Numbers of scripts: IEEE 754 doubles, held as bit patterns so that equality is
decidable and the sign of zero is kept.
-/

namespace ScriptTree

structure Number where
  bits : UInt64
deriving DecidableEq, Inhabited

namespace Number

def ofFloat (value : Float) : Number := ⟨value.toBits⟩

def toFloat (x : Number) : Float := Float.ofBits x.bits

/-! The three fields of the encoding. -/

def signbit (x : Number) : Bool := Nat.pow 2 63 ≤ x.bits.toNat

def magnitude (x : Number) : Nat := x.bits.toNat % Nat.pow 2 63

def exponentField (x : Number) : Nat := x.magnitude / Nat.pow 2 52

def fraction (x : Number) : Nat := x.magnitude % Nat.pow 2 52

def isNaN (x : Number) : Bool := x.exponentField = 2047 && x.fraction ≠ 0

def isInfinite (x : Number) : Bool := x.exponentField = 2047 && x.fraction = 0

def isFinite (x : Number) : Bool := x.exponentField < 2047

def isZero (x : Number) : Bool := x.magnitude = 0

/-- The integer `m` of a finite number `m * 2 ^ q`. -/
def significand (x : Number) : Nat :=
  if x.exponentField = 0 then x.fraction else Nat.pow 2 52 + x.fraction

/-- The exponent `q` of a finite number `m * 2 ^ q`. -/
def binaryExponent (x : Number) : Int :=
  if x.exponentField = 0 then -1074 else (x.exponentField : Int) - 1075

/-- The number with the given sign and the given 63 lower bits. -/
def assemble (negative : Bool) (magnitude : Nat) : Number :=
  ⟨UInt64.ofNat ((if negative then Nat.pow 2 63 else 0) + magnitude % Nat.pow 2 63)⟩

def infinity (negative : Bool) : Number := assemble negative (2047 * Nat.pow 2 52)

def nan : Number := assemble false (2047 * Nat.pow 2 52 + Nat.pow 2 51)

def zero : Number := assemble false 0

/-! Comparison and arithmetic as the standard defines them. -/

/-- Numeric equality: `NaN` equals nothing and both zeros are equal. -/
def equals (x y : Number) : Bool :=
  !x.isNaN && !y.isNaN && (x == y || (x.isZero && y.isZero))

def add (x y : Number) : Number := ofFloat (x.toFloat + y.toFloat)

instance : Add Number := ⟨add⟩

def mul (x y : Number) : Number := ofFloat (x.toFloat * y.toFloat)

instance : Mul Number := ⟨mul⟩

def div (x y : Number) : Number := ofFloat (x.toFloat / y.toFloat)

instance : Div Number := ⟨div⟩

/-! The double nearest to a decimal. -/

/-- The quotient rounded to the nearest integer, a half to the even one. -/
def roundHalfEven (numerator denominator : Nat) : Nat :=
  let quotient := numerator / denominator
  let twice := 2 * (numerator % denominator)
  if twice < denominator then quotient
  else if twice = denominator then quotient + quotient % 2
  else quotient + 1

def scaleDown (numerator denominator : Nat) (q : Int) : Nat × Nat :=
  match q with
  | .ofNat k => (numerator, denominator * Nat.pow 2 k)
  | .negSucc k => (numerator * Nat.pow 2 (k + 1), denominator)

/-- The binary exponent at which a positive fraction has 53 integer bits, but
never below the exponent of subnormal numbers. -/
def gridExponent (numerator denominator : Nat) : Int :=
  let guess := max ((numerator.log2 : Int) - denominator.log2 - 52) (-1074)
  let scaled := scaleDown numerator denominator guess
  let quotient := scaled.1 / scaled.2
  if Nat.pow 2 53 ≤ quotient then guess + 1
  else if quotient < Nat.pow 2 52 then max (guess - 1) (-1074)
  else guess

/-- The magnitude of the double nearest to a positive fraction. A carry out of
the significand moves to the next exponent by itself. -/
def nearestMagnitude (numerator denominator : Nat) : Nat :=
  let q := gridExponent numerator denominator
  let scaled := scaleDown numerator denominator q
  let magnitude := (q + 1074).toNat * Nat.pow 2 52 + roundHalfEven scaled.1 scaled.2
  min magnitude (2047 * Nat.pow 2 52)

def digitCount (n : Nat) : Nat := (Nat.toDigits 10 n).length

/-- The double nearest to `± digits * 10 ^ exponent`; too large a value is
infinite and too small a one is zero. -/
def ofDecimal (negative : Bool) (digits : Nat) (exponent : Int) : Number :=
  let reach := (digitCount digits : Int) + exponent
  if digits = 0 || reach < -330 then assemble negative 0
  else if 310 < reach then infinity negative
  else
    match exponent with
    | .ofNat k => assemble negative (nearestMagnitude (digits * Nat.pow 10 k) 1)
    | .negSucc k => assemble negative (nearestMagnitude digits (Nat.pow 10 (k + 1)))

def ofNat (n : Nat) : Number := ofDecimal false n 0

end Number

end ScriptTree
