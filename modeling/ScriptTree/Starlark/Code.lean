import ScriptTree.Starlark.Scope

/-!
Instructions of the machine that evaluates expressions. Values are taken from a stack and
put there. The instructions of a function stand in blocks, and a layout puts the blocks in
a row; how many idle steps a branch takes depends on where its target is placed.
-/

namespace ScriptTree.Starlark

inductive Instruction where
  | constant (value : Constant)
  | nothing
  | slot (index : Nat)
  | cell (index : Nat)
  | captured (index : Nat)
  | given
  | universal (name : String)
  | setSlot (index : Nat)
  | setCell (index : Nat)
  | duplicate
  | discard
  | exchange
  | unary (op : UnaryOp)
  | binary (op : BinaryOp)
  | makeList (length : Nat)
  | makeTuple (length : Nat)
  | makeDict
  /-- Adds an item to the list below it. -/
  | append
  /-- Adds an entry to the dictionary below it; the key may have to be new. -/
  | setEntry (isNew : Bool)
  | field (name : String)
  | setField (name : String)
  | index
  | setIndex
  | slice
  | unpack (length : Nat)
  | startLoop
  | endLoop
  | call (positional named : Nat) (spread spreadNamed : Bool)
  /-- A step of which nothing is seen. -/
  | idle
  | makeFunction (code : Nat)
  | result
  | jump (target : Nat)
  /-- Goes to the target if the value on top is true; takes idle steps if not. -/
  | branch (target idle : Nat)
  /-- Puts the next item of the innermost loop on top and takes idle steps, or goes to the
  target if there is none. -/
  | next (target idle : Nat)
deriving DecidableEq, Inhabited

structure Signature where
  /-- Number of parameters that take one argument. -/
  ordinary : Nat := 0
  /-- How many of them are given by name only. -/
  byName : Nat := 0
  /-- For the last of them, whether they have a default. -/
  defaults : List Bool := []
  rest : Bool := false
  restNamed : Bool := false
deriving DecidableEq, Inhabited

structure Code where
  signature : Signature := {}
  frame : Frame := {}
  instructions : Array Instruction := #[]
deriving DecidableEq, Inhabited

namespace Layout

structure Block where
  instructions : Array Instruction := #[]
  size : Nat := 0
  /-- The block to go to on a condition; a loop goes there when it is done. -/
  branch : Option (Bool × Nat) := none
  next : Option Nat := none
deriving DecidableEq, Inhabited

def jumpSize : Nat := 5

namespace Block

def isEmpty (b : Block) : Bool := b.instructions.isEmpty && b.branch.isNone

def bytes (b : Block) : Nat := b.size + if b.branch.isSome then jumpSize else 0

end Block

/-- Number of bytes of an operand, seven bits in each. -/
def operandSize (n : Nat) : Nat :=
  if n < Nat.pow 2 7 then 1
  else if n < Nat.pow 2 14 then 2
  else if n < Nat.pow 2 21 then 3
  else 4

def skipEmpty (blocks : Array Block) : Nat → Nat → Nat
  | 0, i => i
  | fuel + 1, i =>
    let b := blocks.getD i {}
    if b.isEmpty then
      match b.next with
      | some j => skipEmpty blocks fuel j
      | none => i
    else i

structure State where
  order : Array Nat := #[]
  addresses : List (Nat × Nat) := []
  address : Nat := 0

/-- Places a block, then what follows it, then where it branches to. -/
def place (blocks : Array Block) : Nat → Nat → State → State
  | 0, _, s => s
  | fuel + 1, i, s =>
    if (s.addresses.lookup i).isSome then s
    else
      let b := blocks.getD i {}
      let s : State :=
        { order := s.order.push i
          addresses := (i, s.address) :: s.addresses
          address := s.address + b.bytes }
      let s := match b.next with
        | some j =>
          if (s.addresses.lookup j).isSome then { s with address := s.address + jumpSize }
          else place blocks fuel j s
        | none => s
      match b.branch with
      | some (_, j) => place blocks fuel j s
      | none => s

def threaded (blocks : Array Block) : Array Block :=
  let skip := skipEmpty blocks blocks.size
  blocks.map fun b =>
    { b with next := b.next.map skip, branch := b.branch.map fun (loop, i) => (loop, skip i) }

def jumps (order : Array Nat) (place : Nat) (b : Block) : Bool :=
  match b.next with
  | some j => order[place + 1]? ≠ some j
  | none => false

def count (order : Array Nat) (place : Nat) (b : Block) : Nat :=
  b.instructions.size + (if b.branch.isSome then 1 else 0) + if jumps order place b then 1 else 0

def starts (blocks : Array Block) (order : Array Nat) : List (Nat × Nat) :=
  (order.toList.zipIdx.foldl (fun (acc : List (Nat × Nat) × Nat) (i, place) =>
    ((i, acc.2) :: acc.1, acc.2 + count order place (blocks.getD i {}))) ([], 0)).1

def instructions (blocks : Array Block) : Array Instruction :=
  let blocks := threaded blocks
  let s := place blocks (blocks.size + 1) 0 {}
  let starts := starts blocks s.order
  let startOf (i : Nat) := (starts.lookup i).getD 0
  let idle (i : Nat) := 4 - operandSize ((s.addresses.lookup i).getD 0)
  s.order.toList.zipIdx.foldl (fun (code : Array Instruction) (i, place) =>
    let b := blocks.getD i {}
    let code := code ++ b.instructions
    let code := match b.branch with
      | some (true, j) => code.push (.next (startOf j) (idle j))
      | some (false, j) => code.push (.branch (startOf j) (idle j))
      | none => code
    if jumps s.order place b then code.push (.jump (startOf (b.next.getD 0))) else code) #[]

end Layout

end ScriptTree.Starlark
