/-!
Control sequences of terminals. A terminal reads bytes one by one and is in a state that says
which part of a sequence, if any, comes next; it shows a byte only outside of sequences.
-/

namespace ScriptTree.Text.Terminal

inductive State where
  | ground
  | escape
  | escapeIntermediate
  /-- Control sequences proper: parameters, intermediate bytes and a final one. -/
  | sequenceEntry
  | sequenceParameter
  | sequenceIntermediate
  /-- Device control strings, which start like a sequence. -/
  | deviceEntry
  | deviceParameter
  | deviceIntermediate
  | deviceString
  /-- Commands to the operating system. -/
  | command
  /-- Strings of other kinds. -/
  | string
  /-- A character of several bytes starts. -/
  | character
deriving DecidableEq, Inhabited

/-- Controls that a terminal acts on inside a sequence too. -/
def isControl (b : Nat) : Bool := b ≤ 0x17 || b = 0x19 || (0x1c ≤ b && b ≤ 0x1f)

def within (low high b : Nat) : Bool := low ≤ b && b ≤ high

def anywhere (b : Nat) : State :=
  if b = 0x1b then .escape
  else if b = 0x90 then .deviceEntry
  else if b = 0x98 || b = 0x9e || b = 0x9f then .string
  else if b = 0x9b then .sequenceEntry
  else if b = 0x9d then .command
  else if within 0xc2 0xf4 b then .character
  else .ground

def afterEscape (b : Nat) : State :=
  if b = 'P'.toNat then .deviceEntry
  else if b = '['.toNat then .sequenceEntry
  else if b = ']'.toNat then .command
  else if b = 'X'.toNat || b = 0x5e || b = '_'.toNat then .string
  else .ground

def endOfString? (b : Nat) : Option State :=
  if b = 0x1b then some .escape
  else if b = 0x18 || b = 0x1a || b = 0x9c then some .ground
  else none

def next (s : State) (byte : UInt8) : State :=
  let b := byte.toNat
  match s with
  | .ground | .character => anywhere b
  | .escape =>
    if isControl b || b = 0x7f then .escape
    else if within 0x20 0x2f b then .escapeIntermediate
    else if within 0x30 0x7e b then afterEscape b
    else anywhere b
  | .escapeIntermediate =>
    if isControl b || within 0x20 0x2f b || b = 0x7f then .escapeIntermediate else anywhere b
  | .sequenceEntry =>
    if isControl b || b = 0x7f then .sequenceEntry
    else if within 0x20 0x2f b then .sequenceIntermediate
    else if within 0x30 0x3f b then .sequenceParameter
    else anywhere b
  | .sequenceParameter =>
    if isControl b || within 0x30 0x3f b || b = 0x7f then .sequenceParameter
    else if within 0x20 0x2f b then .sequenceIntermediate
    else anywhere b
  | .sequenceIntermediate =>
    if isControl b || within 0x20 0x2f b || b = 0x7f then .sequenceIntermediate else anywhere b
  | .deviceEntry =>
    if within 0x08 0x0d b || b = 0x1b || within 0x40 0x7e b then .deviceString
    else if isControl b || b = 0x7f then .deviceEntry
    else if within 0x20 0x2f b then .deviceIntermediate
    else if within 0x30 0x3f b then .deviceParameter
    else anywhere b
  | .deviceParameter =>
    if isControl b || within 0x30 0x3f b || b = 0x7f then .deviceParameter
    else if within 0x20 0x2f b then .deviceIntermediate
    else if within 0x40 0x7e b then .deviceString
    else anywhere b
  | .deviceIntermediate =>
    if isControl b || within 0x20 0x2f b || b = 0x7f then .deviceIntermediate
    else if within 0x30 0x7e b then .deviceString
    else anywhere b
  | .deviceString => (endOfString? b).getD .deviceString
  | .command => if b = 0x07 then .ground else (endOfString? b).getD .command
  | .string => if b ≤ 0x7f then (endOfString? b).getD .string else anywhere b

def shows (s : State) (byte : UInt8) : Bool := s = .ground && within 0x20 0x7e byte.toNat

end ScriptTree.Text.Terminal
