import ScriptTree.Starlark.Code
import ScriptTree.Starlark.Sum

/-!
From expressions to instructions.
-/

namespace ScriptTree.Starlark

structure Assembly where
  main : Code
  functions : Array Code
deriving DecidableEq, Inhabited

namespace Assembler

structure State where
  resolution : Scope.Resolution
  blocks : Array Layout.Block := #[{}]
  current : Nat := 0
  /-- Constants and names in the order of their first use, last first. -/
  constants : List Constant := []
  names : List String := []
  functions : Array Code := #[]

abbrev Assemble := StateM State

def emitSized (size : Nat) (i : Instruction) : Assemble Unit :=
  modify fun s =>
    { s with blocks := s.blocks.modify s.current fun b =>
      { b with instructions := b.instructions.push i, size := b.size + size } }

def emit (i : Instruction) : Assemble Unit := emitSized 1 i

def emitWith (operand : Nat) (i : Instruction) : Assemble Unit :=
  emitSized (1 + Layout.operandSize operand) i

/-- The number of an item in a table whose last item comes first, and the table with the
item. -/
def number [DecidableEq α] (x : α) (table : List α) : Nat × List α :=
  match table.findIdx? (· = x) with
  | some i => (table.length - 1 - i, table)
  | none => (table.length, x :: table)

def constant (c : Constant) : Assemble Unit := do
  let i ← modifyGet fun s =>
    let (i, constants) := number c s.constants
    (i, { s with constants })
  emitWith i (.constant c)

def emitNamed (name : String) (i : Instruction) : Assemble Unit := do
  let n ← modifyGet fun s =>
    let (n, names) := number name s.names
    (n, { s with names })
  emitWith n i

def newBlock : Assemble Nat :=
  modifyGet fun s => (s.blocks.size, { s with blocks := s.blocks.push {} })

def enter (block : Nat) : Assemble Unit := modify fun s => { s with current := block }

/-- Ends the current block. -/
def jump (block : Nat) : Assemble Unit :=
  modify fun s =>
    { s with blocks := s.blocks.modify s.current fun b => { b with next := some block } }

def branch (loop : Bool) (yes no : Nat) : Assemble Unit := do
  modify fun s =>
    { s with blocks := s.blocks.modify s.current fun b => { b with branch := some (loop, yes) } }
  jump no

/-- Where to go on when the value of an expression is true and when it is not. -/
abbrev Goal := Option (Nat × Nat)

/-- Branches by the value on top if there is somewhere to go. -/
def settle : Goal → Assemble Unit
  | some (yes, no) => branch false yes no
  | none => pure ()

def lookUp (name : String) (p : Position) : Assemble Unit := do
  match ((← get).resolution.accesses.lookup p).getD .universal with
  | .slot i => emitWith i (.slot i)
  | .cell i => emitWith i (.cell i)
  | .captured i => emitWith i (.captured i)
  | .given => emitNamed name .given
  | .universal => emitNamed name (.universal name)

def assignName (p : Position) : Assemble Unit := do
  match ((← get).resolution.accesses.lookup p).getD .universal with
  | .cell i => emitWith i (.setCell i)
  | .slot i | .captured i => emitWith i (.setSlot i)
  | .given | .universal => emit .discard

def signatureOf (parameters : List (Parameter Expr)) : Signature :=
  parameters.foldl (fun (s : Signature × Bool) p =>
    let (sig, starred) := s
    let ordinary (pattern : List Bool) : Signature :=
      { sig with
        ordinary := sig.ordinary + 1
        byName := if starred then sig.byName + 1 else sig.byName
        defaults := sig.defaults ++ pattern }
    match p with
    | .required _ _ => (ordinary (if starred then [false] else []), starred)
    | .optional _ _ _ _ => (ordinary [true], starred)
    | .bare _ => (sig, true)
    | .rest _ _ _ => ({ sig with rest := true }, true)
    | .restNamed _ _ _ => ({ sig with restNamed := true }, true)) ({}, false) |>.1

def captures (frame : Frame) : Assemble Unit :=
  frame.captured.forM fun (_, c) =>
    match c with
    | .cell i | .captured i => emitWith i .idle

mutual

def expression (goal : Goal) : Expr → Assemble Unit
  | .name n p => do
    lookUp n p
    settle goal
  | .constant c _ => do
    constant c
    settle goal
  | .group _ e => do
    expression none e
    settle goal
  | .list _ items => do
    all items
    emitWith items.length (.makeList items.length)
    settle goal
  | .tuple _ items => do
    all items
    emitWith items.length (.makeTuple items.length)
    settle goal
  | .dict _ items => do
    emit .makeDict
    entries items
    settle goal
  | .unary _ .not e =>
    match goal with
    | some (yes, no) => expression (some (no, yes)) e
    | none => do
      expression none e
      emit (.unary .not)
  | .unary _ op e => do
    expression none e
    emit (.unary op)
    settle goal
  | .binary .or a b =>
    match goal with
    | some (yes, no) => do
      expression none a
      let y ← newBlock
      branch false yes y
      enter y
      expression (some (yes, no)) b
    | none => do
      let done ← newBlock
      let y ← newBlock
      expression none a
      emit .duplicate
      branch false done y
      enter y
      emit .discard
      expression none b
      jump done
      enter done
  | .binary .and a b =>
    match goal with
    | some (yes, no) => do
      expression none a
      let y ← newBlock
      branch false y no
      enter y
      expression (some (yes, no)) b
    | none => do
      let done ← newBlock
      let y ← newBlock
      expression none a
      emit .duplicate
      branch false y done
      enter y
      emit .discard
      expression none b
      jump done
      enter done
  | .binary .notIn a b => do
    expression none a
    expression none b
    emit (.binary .isIn)
    match goal with
    | some (yes, no) => branch false no yes
    | none => emit (.unary .not)
  | .binary op a b => do
    expression none a
    expression none b
    emit (.binary op)
    settle goal
  | .conditional c a b => do
    let yes ← newBlock
    let no ← newBlock
    let done ← newBlock
    expression (some (yes, no)) c
    enter yes
    expression none a
    jump done
    enter no
    expression none b
    jump done
    enter done
    settle goal
  | .field e name => do
    expression none e
    emitNamed name (.field name)
    settle goal
  | .index e k => do
    expression none e
    expression none k
    emit .index
    settle goal
  | .slice e low high step => do
    expression none e
    optional low
    optional high
    optional step
    emit .slice
    settle goal
  | .call f args => do
    expression none f
    arguments args
    spread args
    spreadNamed args
    let positional := args.countP fun a => match a with
      | .positional _ => true
      | _ => false
    let named := args.countP fun a => match a with
      | .named _ _ _ => true
      | _ => false
    let hasSpread := args.any fun a => match a with
      | .spread _ _ => true
      | _ => false
    let hasSpreadNamed := args.any fun a => match a with
      | .spreadNamed _ _ => true
      | _ => false
    emitWith (positional * 256 + named) (.call positional named hasSpread hasSpreadNamed)
    settle goal
  | .listOf _ body cs => do
    emitWith 0 (.makeList 0)
    clauses cs (do
      emit .duplicate
      expression none body
      emit .append)
    settle goal
  | .dictOf _ k v cs => do
    emit .makeDict
    clauses cs (do
      emit .duplicate
      expression none k
      expression none v
      emit (.setEntry false))
    settle goal
  | .lambda p parameters body => do
    defaults false parameters
    let frame := ((← get).resolution.frames.lookup p).getD {}
    let signature := signatureOf parameters
    captures frame
    emitWith (signature.defaults.length + frame.captured.length) .idle
    let outer ← get
    modify fun s => { s with blocks := #[{}], current := 0 }
    expression none body
    emit .result
    let index ← modifyGet fun s =>
      (s.functions.size,
        { s with
          blocks := outer.blocks
          current := outer.current
          functions := s.functions.push ⟨signature, frame, Layout.instructions s.blocks⟩ })
    emitWith index (.makeFunction index)
    settle goal

def all : List Expr → Assemble Unit
  | [] => pure ()
  | e :: rest => do
    expression none e
    all rest

def optional : Option Expr → Assemble Unit
  | none => emit .nothing
  | some e => expression none e

def entries : List (Expr × Expr) → Assemble Unit
  | [] => pure ()
  | (k, v) :: rest => do
    emit .duplicate
    expression none k
    expression none v
    emit (.setEntry true)
    entries rest

def arguments : List (Argument Expr) → Assemble Unit
  | [] => pure ()
  | .positional e :: rest => do
    expression none e
    arguments rest
  | .named n _ e :: rest => do
    constant (.string n)
    expression none e
    arguments rest
  | .spread _ _ :: rest | .spreadNamed _ _ :: rest => arguments rest

def spread : List (Argument Expr) → Assemble Unit
  | [] => pure ()
  | .spread _ e :: rest => do
    expression none e
    spread rest
  | .positional _ :: rest | .named _ _ _ :: rest | .spreadNamed _ _ :: rest => spread rest

def spreadNamed : List (Argument Expr) → Assemble Unit
  | [] => pure ()
  | .spreadNamed _ e :: rest => do
    expression none e
    spreadNamed rest
  | .positional _ :: rest | .named _ _ _ :: rest | .spread _ _ :: rest => spreadNamed rest

/-- Defaults of parameters; one that is given by name only and has none takes a step. -/
def defaults (starred : Bool) : List (Parameter Expr) → Assemble Unit
  | [] => pure ()
  | .optional _ _ _ e :: rest => do
    expression none e
    defaults starred rest
  | .required _ _ :: rest => do
    if starred then emit .idle
    defaults starred rest
  | .bare _ :: rest | .rest _ _ _ :: rest | .restNamed _ _ _ :: rest => defaults true rest

def clauses : List (Clause Expr) → Assemble Unit → Assemble Unit
  | [], body => body
  | .condition test :: rest, body => do
    let yes ← newBlock
    let done ← newBlock
    expression (some (yes, done)) test
    enter yes
    clauses rest body
    jump done
    enter done
  | .loop place items :: rest, body => do
    let head ← newBlock
    let inner ← newBlock
    let tail ← newBlock
    expression none items
    emit .startLoop
    jump head
    enter head
    branch true tail inner
    enter inner
    target place
    clauses rest body
    jump head
    enter tail
    emit .endLoop

def target : Expr → Assemble Unit
  | .name _ p => assignName p
  | .group _ e => target e
  | .list _ items => do
    emitWith items.length (.unpack items.length)
    targets items
  | .tuple _ items => do
    emitWith items.length (.unpack items.length)
    targets items
  | .index e k => do
    expression none e
    emit .exchange
    expression none k
    emit .exchange
    emit .setIndex
  | .field e name => do
    expression none e
    emit .exchange
    emitNamed name (.setField name)
  | .constant _ _ | .dict _ _ | .unary _ _ _ | .binary _ _ _ | .conditional _ _ _ | .slice _ _ _ _
  | .call _ _ | .listOf _ _ _ | .dictOf _ _ _ _ | .lambda _ _ _ => emit .discard

def targets : List Expr → Assemble Unit
  | [] => pure ()
  | e :: rest => do
    target e
    targets rest

end

end Assembler

def Assembly.ofExpr (r : Scope.Resolution) (e : Expr) : Assembly :=
  let s := (do
    Assembler.expression none e.joinSums
    Assembler.emit .result : Assembler.Assemble Unit).run { resolution := r } |>.2
  ⟨⟨{}, r.outer, Layout.instructions s.blocks⟩, s.functions⟩

end ScriptTree.Starlark
