/-!
Changes of watched files, collected until they are handled together, and the threads that handle
them. A change is noted at once and starts a timer anew, and when the timer runs out a flush
begins. A flush waits for the lock of the running batch, takes all changes in one step, runs what
it took and gives the lock back. Stopping takes the timer away and waits for the lock once. A run
is an interleaving of the steps of all threads.
-/

namespace ScriptTree

structure Watch where
  /-- The watched files, in the order in which they were given. -/
  files : List String
  changed : List String := []
deriving DecidableEq, Inhabited

namespace Watch

def mark (w : Watch) (file : String) : Watch := { w with changed := file :: w.changed }

def batch (w : Watch) : List String := w.files.filter w.changed.contains

def flush (w : Watch) : List String × Watch := (w.batch, { w with changed := [] })

end Watch

inductive Debouncer.Stage where
  /-- It waits for the lock, to flush. -/
  | waiting
  | locked
  /-- It has taken the changes and has not run them yet. -/
  | taken (batch : List String)
  | running (batch : List String)
  /-- It waits for the lock, to stop. -/
  | stopping
  | releasing
  | ended
deriving DecidableEq

structure Debouncer where
  watch : Watch
  /-- Whether the timer runs. -/
  armed : Bool := false
  /-- Whether a thread has the lock of the running batch. -/
  held : Bool := false
  /-- Where each thread stands, in the order in which they began. -/
  stages : List Debouncer.Stage := []
deriving DecidableEq

namespace Debouncer

inductive Action where
  | add (file : String)
  /-- The timer runs out. -/
  | fire
  /-- A flush without the timer. -/
  | flush
  | stop
  | step (thread : Nat)
deriving DecidableEq

inductive Event where
  | added (file : String)
  | stopped
  /-- The changes were taken, and these are to be handled. -/
  | taken (batch : List String)
  | began (batch : List String)
  | finished (batch : List String)
deriving DecidableEq

def start (files : List String) : Debouncer := { watch := { files } }

def advance? (d : Debouncer) (thread : Nat) : Stage → Option Debouncer
  | .waiting =>
    if d.held then none else some { d with held := true, stages := d.stages.set thread .locked }
  | .stopping =>
    if d.held then none else some { d with held := true, stages := d.stages.set thread .releasing }
  | .locked =>
    some { d with watch := d.watch.flush.2, stages := d.stages.set thread (.taken d.watch.flush.1) }
  | .taken batch =>
    some { d with
      stages := d.stages.set thread (if batch.isEmpty then .releasing else .running batch) }
  | .running _ => some { d with stages := d.stages.set thread .releasing }
  | .releasing => some { d with held := false, stages := d.stages.set thread .ended }
  | .ended => none

def step? (d : Debouncer) : Action → Option Debouncer
  | .add file => some { d with watch := d.watch.mark file, armed := true }
  | .fire =>
    if d.armed then some { d with armed := false, stages := d.stages ++ [.waiting] } else none
  | .flush => some { d with stages := d.stages ++ [.waiting] }
  | .stop => some { d with armed := false, stages := d.stages ++ [.stopping] }
  | .step thread => d.stages[thread]?.bind (d.advance? thread)

def events (d : Debouncer) : Action → List Event
  | .add file => [.added file]
  | .stop => [.stopped]
  | .fire | .flush => []
  | .step thread =>
    match d.stages[thread]? with
    | some .locked => [.taken d.watch.flush.1]
    | some (.taken batch) => if batch.isEmpty then [] else [.began batch]
    | some (.running batch) => [.finished batch]
    | _ => []

def run? (d : Debouncer) : List Action → Option (Debouncer × List Event)
  | [] => some (d, [])
  | action :: rest => do
    let next ← d.step? action
    let (last, later) ← next.run? rest
    return (last, d.events action ++ later)

end Debouncer

end ScriptTree
