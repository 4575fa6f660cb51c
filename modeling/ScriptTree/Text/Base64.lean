import ScriptTree.Text.Bytes

/-!
Reading bytes from their base-64 form.
-/

namespace ScriptTree.Text

def base64Digit? (c : Char) : Option Nat :=
  if 'A' ≤ c && c ≤ 'Z' then some (c.toNat - 65)
  else if 'a' ≤ c && c ≤ 'z' then some (c.toNat - 71)
  else if '0' ≤ c && c ≤ '9' then some (c.toNat + 4)
  else if c = '+' then some 62
  else if c = '/' then some 63
  else none

def byteOf (n : Nat) : UInt8 := UInt8.ofNat (n % 256)

/-- The bytes of groups of four digits; only the last group may be padded. -/
def base64Groups : List Char → Option (List UInt8)
  | [] => some []
  | [a, b, '=', '='] => do
    let n := (← base64Digit? a) * 64 + (← base64Digit? b)
    return [byteOf (n / 16)]
  | [a, b, c, '='] => do
    let n := ((← base64Digit? a) * 64 + (← base64Digit? b)) * 64 + (← base64Digit? c)
    return [byteOf (n / 1024), byteOf (n / 4)]
  | a :: b :: c :: d :: rest => do
    let n := (((← base64Digit? a) * 64 + (← base64Digit? b)) * 64 + (← base64Digit? c)) * 64 +
      (← base64Digit? d)
    let tail ← base64Groups rest
    return byteOf (n / 65536) :: byteOf (n / 256) :: byteOf n :: tail
  | _ => none

/-- The bytes that a text stands for; line breaks do not count. -/
def base64? (text : String) : Option (List UInt8) :=
  base64Groups (text.toList.filter (fun c => c ≠ '\n' && c ≠ '\r'))

end ScriptTree.Text
