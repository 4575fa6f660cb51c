/-!
Evaluators that are used again. Each counts the steps it has taken; one that comes back
starts from zero, unless there is no room for it.
-/

namespace ScriptTree.Starlark

structure Pool where
  capacity : Nat
  /-- Evaluators at rest, the last to come back first. -/
  idle : List Nat := []
  /-- The steps of each evaluator, in the order in which they were made. -/
  steps : List Nat := []
deriving DecidableEq, Inhabited

namespace Pool

def standardCapacity : Nat := 8

def ofCapacity (n : Int) : Pool := ⟨if n ≤ 0 then standardCapacity else n.toNat, [], []⟩

def size (p : Pool) : Nat := p.idle.length

def stepsOf (p : Pool) (evaluator : Nat) : Nat := p.steps[evaluator]?.getD 0

/-- Takes the evaluator that came back last, or makes one. -/
def take (p : Pool) : Nat × Pool :=
  match p.idle with
  | evaluator :: rest => (evaluator, { p with idle := rest })
  | [] => (p.steps.length, { p with steps := p.steps ++ [0] })

/-- Gives an evaluator back; where there is no room for it, nothing changes. -/
def give (p : Pool) (evaluator : Nat) : Pool :=
  if p.size < p.capacity then
    { p with idle := evaluator :: p.idle, steps := p.steps.set evaluator 0 }
  else p

def work (p : Pool) (evaluator steps : Nat) : Pool :=
  { p with steps := p.steps.set evaluator (p.stepsOf evaluator + steps) }

end Pool

end ScriptTree.Starlark
