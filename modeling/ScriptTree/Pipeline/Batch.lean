import ScriptTree.Pipeline

/-!
Several scripts compiled at once. One thread looks at the scripts in their order and gives
each to a worker as soon as there are fewer workers than the limit; it waits for all
workers in the end. A cancellation may come at any moment, and reaches the threads some time
later. Every record is written by one thread at a time and read when all have ended, so a
run is an interleaving of the steps of the threads.
-/

namespace ScriptTree

namespace Pipeline

structure Slot where
  name : String := ""
  output : Option Output := none
  error : Option PipelineError := none

def Slot.of (name : String) : Except PipelineError Output → Slot
  | .ok output => { name, output := some output }
  | .error e => { name, error := some e }

inductive Stage where
  | waiting
  | started
  /-- Its worker has seen no cancellation. -/
  | cleared
  | compiled (result : Except PipelineError Output)
  /-- The output is recorded, and the error is not yet. -/
  | recording (result : Except PipelineError Output)
  | ended

namespace Stage

def isRunning : Stage → Bool
  | waiting | ended => false
  | started | cleared | compiled _ | recording _ => true

end Stage

structure Cell where
  input : String × Node
  slot : Slot := {}
  stage : Stage := .waiting

namespace Cell

def named (c : Cell) : Cell := { c with slot := { c.slot with name := c.input.1 } }

def refuse (c : Cell) : Cell :=
  { c with slot := { c.slot with error := some .cancelled }, stage := .ended }

/-- One step of the worker. It looks for a cancellation before it compiles, and the
interpreter looks for one again. -/
def work? (p : Pipeline) (signalled : Bool) (c : Cell) : Option Cell :=
  match c.stage with
  | .waiting | .ended => none
  | .started => some (if signalled then c.refuse else { c with stage := .cleared })
  | .cleared => some { c with stage := .compiled (p.run signalled c.input.2).result }
  | .compiled result =>
    some { c with
      slot := { c.slot with output := (Slot.of "" result).output }, stage := .recording result }
  | .recording result =>
    some { c with slot := { c.slot with error := (Slot.of "" result).error }, stage := .ended }

end Cell

inductive Dispatcher where
  /-- It looks at the script of an index; if there is none, it waits for the workers. -/
  | looking (index : Nat)
  /-- It waits until a worker may start on the script of an index. -/
  | admitting (index : Nat)
  | returned (interrupted : Bool)

structure Batch where
  cells : List Cell
  dispatcher : Dispatcher := .looking 0
  cancelled : Bool := false
  /-- Whether the threads can see that the batch is cancelled. -/
  signalled : Bool := false

inductive Action where
  | cancel
  | signal
  | dispatch
  | work (index : Nat)
deriving DecidableEq

namespace Batch

def start (inputs : List (String × Node)) : Batch := { cells := inputs.map fun i => { input := i } }

def results (b : Batch) : List Slot := b.cells.map (·.slot)

def running (b : Batch) : Nat := b.cells.countP (·.stage.isRunning)

def isOver (b : Batch) : Bool :=
  match b.dispatcher with
  | .returned _ => true
  | .looking _ | .admitting _ => false

def dispatch? (limit : Nat) (b : Batch) : Option Batch :=
  match b.dispatcher with
  | .looking i =>
    match b.cells[i]? with
    | some c =>
      some (if b.signalled then
          { b with cells := b.cells.set i c.named.refuse, dispatcher := .looking (i + 1) }
        else { b with cells := b.cells.set i c.named, dispatcher := .admitting i })
    | none => if b.running = 0 then some { b with dispatcher := .returned b.cancelled } else none
  | .admitting i =>
    match b.cells[i]? with
    | some c =>
      if b.running < limit then
        some { b with
          cells := b.cells.set i { c with stage := .started }, dispatcher := .looking (i + 1) }
      else none
    | none => none
  | .returned _ => none

def step? (p : Pipeline) (limit : Nat) (b : Batch) : Action → Option Batch
  | .cancel => if !b.isOver && !b.cancelled then some { b with cancelled := true } else none
  | .signal =>
    if !b.isOver && b.cancelled && !b.signalled then some { b with signalled := true } else none
  | .dispatch => b.dispatch? limit
  | .work i => do
    let c ← b.cells[i]?
    let next ← c.work? p b.signalled
    return { b with cells := b.cells.set i next }

def run? (p : Pipeline) (limit : Nat) (b : Batch) : List Action → Option Batch
  | [] => some b
  | action :: rest => (b.step? p limit action).bind (run? p limit · rest)

/-- The number of workers at a time; without a choice it is that of the processors. -/
def limitOf (concurrency : Int) (processors : Nat) : Nat :=
  if concurrency ≤ 0 then processors else concurrency.toNat

end Batch

end Pipeline

end ScriptTree
