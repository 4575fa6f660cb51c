import ScriptTree.Number.Reader

/-!
Timestamps: a date, or a date and a time of day with an optional offset from
universal time.
-/

namespace ScriptTree.Yaml

structure Timestamp where
  year : Nat
  month : Nat
  day : Nat
  hour : Nat := 0
  minute : Nat := 0
  second : Nat := 0
  nanosecond : Nat := 0
  /-- Minutes from universal time. -/
  offset : Int := 0
deriving DecidableEq, Inhabited

namespace Timestamp

def isLeap (year : Nat) : Bool := year % 4 = 0 && (year % 100 ≠ 0 || year % 400 = 0)

def daysIn (year month : Nat) : Nat :=
  if month = 2 then (if isLeap year then 29 else 28)
  else if month = 4 || month = 6 || month = 9 || month = 11 then 30
  else 31

def short? (cs : List Char) : Option (Nat × List Char) :=
  match cs with
  | a :: b :: rest =>
    if !Number.isDecimalDigit a then none
    else if Number.isDecimalDigit b then some (Number.valueOf 10 [a, b], rest)
    else some (Number.valueOf 10 [a], b :: rest)
  | [a] => if Number.isDecimalDigit a then some (Number.valueOf 10 [a], []) else none
  | [] => none

def pair? : List Char → Option (Nat × List Char)
  | a :: b :: rest =>
    if Number.isDecimalDigit a && Number.isDecimalDigit b then
      some (Number.valueOf 10 [a, b], rest)
    else none
  | _ => none

def expect (c : Char) : List Char → Option (List Char)
  | x :: rest => if x = c then some rest else none
  | [] => none

/-- Nanoseconds of a fraction of a second; further digits do not count. -/
def fraction (cs : List Char) : Nat × List Char :=
  match cs with
  | mark :: d :: rest =>
    if (mark = '.' || mark = ',') && Number.isDecimalDigit d then
      let digits := d :: rest.takeWhile Number.isDecimalDigit
      let nine := (digits.take 9) ++ List.replicate (9 - digits.length) '0'
      (Number.valueOf 10 nine, rest.dropWhile Number.isDecimalDigit)
    else (0, cs)
  | _ => (0, cs)

def zone? : List Char → Option Int
  | ['Z'] => some 0
  | sign :: rest => do
    let (h, rest) ← pair? rest
    let rest ← expect ':' rest
    let (m, rest) ← pair? rest
    if !rest.isEmpty || 24 < h || 60 < m then none
    else if sign = '+' then some (h * 60 + m : Nat)
    else if sign = '-' then some (-((h * 60 + m : Nat) : Int))
    else none
  | [] => none

def date? (cs : List Char) : Option (Timestamp × List Char) := do
  let year := cs.take 4
  if year.length < 4 || !year.all Number.isDecimalDigit then none
  let rest ← expect '-' (cs.drop 4)
  let (month, rest) ← short? rest
  let rest ← expect '-' rest
  let (day, rest) ← short? rest
  let year := Number.valueOf 10 year
  if month < 1 || 12 < month || day < 1 || daysIn year month < day then none
  else return ({ year := year, month := month, day := day }, rest)

def read? (text : String) : Option Timestamp := do
  let (date, rest) ← date? text.toList
  match rest with
  | [] => return date
  | mark :: rest =>
    let (hour, rest) ← short? rest
    let rest ← expect ':' rest
    let (minute, rest) ← short? rest
    let rest ← expect ':' rest
    let (second, rest) ← short? rest
    let (nanosecond, rest) := fraction rest
    if 23 < hour || 59 < minute || 59 < second then none
    else
      let t := { date with
        hour := hour, minute := minute, second := second, nanosecond := nanosecond }
      if mark = 'T' || mark = 't' then
        let offset ← zone? rest
        return { t with offset := offset }
      else if mark = ' ' && rest.isEmpty then return t
      else none

/-! The written form. -/

def padded (width n : Nat) : String :=
  let digits := Nat.toDigits 10 n
  String.ofList (List.replicate (width - digits.length) '0' ++ digits)

def fractionText (nanosecond : Nat) : String :=
  if nanosecond = 0 then ""
  else
    "." ++ String.ofList ((padded 9 nanosecond).toList.reverse.dropWhile (· = '0')).reverse

def zoneText (offset : Int) : String :=
  if offset = 0 then "Z"
  else
    (if offset < 0 then "-" else "+") ++ padded 2 (offset.natAbs / 60) ++ ":" ++
      padded 2 (offset.natAbs % 60)

/-- Whether the offset is less than a day, as the written form wants it. -/
def hasPlainOffset (t : Timestamp) : Bool := t.offset.natAbs < 24 * 60

def text (t : Timestamp) : String :=
  padded 4 t.year ++ "-" ++ padded 2 t.month ++ "-" ++ padded 2 t.day ++ "T" ++
    padded 2 t.hour ++ ":" ++ padded 2 t.minute ++ ":" ++ padded 2 t.second ++
    fractionText t.nanosecond ++ zoneText t.offset

end Timestamp

end ScriptTree.Yaml
