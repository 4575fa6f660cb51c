import ScriptTree.Number.Shortest

/-!
Written forms of numbers. All start from the shortest decimal and differ in
where positional notation ends and in how the exponent is written.
-/

namespace ScriptTree

namespace Decimal

def zeros (n : Nat) : String := String.ofList (List.replicate n '0')

def positional (d : Decimal) : String :=
  let text := Nat.toDigits 10 d.digits
  match d.exponent with
  | .ofNat k => String.ofList text ++ (if d.digits = 0 then "" else zeros k)
  | .negSucc k =>
    let places := k + 1
    if places < text.length then
      String.ofList (text.take (text.length - places)) ++ "." ++
        String.ofList (text.drop (text.length - places))
    else "0." ++ zeros (places - text.length) ++ String.ofList text

def order (d : Decimal) : Int := (Nat.toDigits 10 d.digits).length + d.exponent - 1

def exponentDigits (width : Nat) (n : Nat) : String :=
  let text := Nat.toDigits 10 n
  zeros (width - text.length) ++ String.ofList text

/-- One digit before the point, and a signed exponent of at least `width`
digits. -/
def scientific (d : Decimal) (width : Nat) : String :=
  let head :=
    match Nat.toDigits 10 d.digits with
    | [] => ""
    | [c] => String.ofList [c]
    | c :: rest => String.ofList (c :: '.' :: rest)
  head ++ (if d.order < 0 then "e-" else "e+") ++ exponentDigits width d.order.natAbs

end Decimal

namespace Number

structure Specials where
  nan : String
  positive : String
  negative : String

def layOut (specials : Specials) (write : Decimal → String) (x : Number) : String :=
  if x.isNaN then specials.nan
  else if x.isInfinite then (if x.signbit then specials.negative else specials.positive)
  else (if x.signbit then "-" else "") ++ write x.shortest

def plainSpecials : Specials := ⟨"NaN", "+Inf", "-Inf"⟩

/-- The general form: an exponent of at least two digits when the first digit
stands below the fourth place after the point or at the seventh before it. -/
def general (x : Number) : String :=
  x.layOut plainSpecials fun d =>
    if d.digits ≠ 0 && (d.order < -4 || 6 ≤ d.order) then d.scientific 2 else d.positional

def positional (x : Number) : String := x.layOut plainSpecials Decimal.positional

/-- Whether a magnitude is written positionally in source text and in JSON:
from `1e-6` up to but not including `1e21`. -/
def isPlain (x : Number) : Bool :=
  x.isZero ||
    ((ofDecimal false 1 (-6)).magnitude ≤ x.magnitude &&
      x.magnitude < (ofDecimal false 1 21).magnitude)

def jsonForm (x : Number) : String :=
  x.layOut plainSpecials fun d => if x.isPlain then d.positional else d.scientific 1

def dropExponentPlus : List Char → List Char
  | 'e' :: '+' :: rest => 'e' :: rest
  | c :: rest => c :: dropExponentPlus rest
  | [] => []

/-- The numeric literal of source text. An infinity is written as a literal out
of range and `NaN` as a quotient of zeros. -/
def literal (x : Number) : String :=
  x.layOut ⟨"(0 / 0)", "2e308", "-2e308"⟩ fun d =>
    if x.isPlain then d.positional
    else String.ofList (dropExponentPlus (d.scientific 2).toList)

end Number

end ScriptTree
