import ScriptTree.Pipeline.Batch

/-!
What holds in every state of a batch. A step is one of seven, and none of them breaks what the
records hold: the result that a script gives alone, or an error that tells of a cancellation
that has come.
-/

namespace ScriptTree

def PipelineError.IsCancellation : PipelineError → Prop
  | .cancelled | .interpret .cancelled => True
  | .interpret (.failed _) | .noInterpretation | .compile _ | .invalid _ | .minify _ => False

namespace Pipeline

namespace Batch

/-! What a step can do. -/

inductive Step (p : Pipeline) (limit : Nat) (b : Batch) : Batch → Prop
  | cancel (hopen : b.isOver = false) (hfresh : b.cancelled = false) :
      Step p limit b { b with cancelled := true }
  | signal (hopen : b.isOver = false) (hcancelled : b.cancelled = true)
      (hfresh : b.signalled = false) : Step p limit b { b with signalled := true }
  | work {i : Nat} {c next : Cell} (hc : b.cells[i]? = some c)
      (hwork : c.work? p b.signalled = some next) :
      Step p limit b { b with cells := b.cells.set i next }
  | refuse {i : Nat} {c : Cell} (hlooking : b.dispatcher = .looking i)
      (hc : b.cells[i]? = some c) (hsignalled : b.signalled = true) :
      Step p limit b
        { b with cells := b.cells.set i c.named.refuse, dispatcher := .looking (i + 1) }
  | name {i : Nat} {c : Cell} (hlooking : b.dispatcher = .looking i)
      (hc : b.cells[i]? = some c) (hsignalled : b.signalled = false) :
      Step p limit b { b with cells := b.cells.set i c.named, dispatcher := .admitting i }
  | launch {i : Nat} {c : Cell} (hadmitting : b.dispatcher = .admitting i)
      (hc : b.cells[i]? = some c) (hfree : b.running < limit) :
      Step p limit b
        { b with cells := b.cells.set i { c with stage := .started }, dispatcher := .looking (i + 1) }
  | finish {i : Nat} (hlooking : b.dispatcher = .looking i) (hnone : b.cells[i]? = none)
      (hidle : b.running = 0) : Step p limit b { b with dispatcher := .returned b.cancelled }

section Step

variable {p : Pipeline} {limit : Nat} {b next : Batch}

theorem step_of_dispatch? (hnext : b.dispatch? limit = some next) : Step p limit b next := by
  unfold dispatch? at hnext
  split at hnext
  next i hlooking =>
    split at hnext
    next c hc =>
      cases hsignalled : b.signalled with
      | true =>
          simp only [hsignalled, if_true, Option.some.injEq] at hnext
          exact hnext ▸ hsignalled ▸ .refuse hlooking hc hsignalled
      | false =>
          simp only [hsignalled, Bool.false_eq_true, if_false, Option.some.injEq] at hnext
          exact hnext ▸ hsignalled ▸ .name hlooking hc hsignalled
    next hnone =>
      split at hnext
      next hidle => exact Option.some.inj hnext ▸ .finish hlooking hnone hidle
      next => cases hnext
  next i hadmitting =>
    split at hnext
    next c hc =>
      split at hnext
      next hfree => exact Option.some.inj hnext ▸ .launch hadmitting hc hfree
      next => cases hnext
    next => cases hnext
  next => cases hnext

theorem step_of_step? {action : Action} (hnext : b.step? p limit action = some next) :
    Step p limit b next := by
  cases action with
  | cancel =>
      simp only [step?, Option.ite_none_right_eq_some, Bool.and_eq_true, Bool.not_eq_true',
        Option.some.injEq] at hnext
      obtain ⟨⟨hopen, hfresh⟩, rfl⟩ := hnext
      exact .cancel hopen hfresh
  | signal =>
      simp only [step?, Option.ite_none_right_eq_some, Bool.and_eq_true, Bool.not_eq_true',
        Option.some.injEq] at hnext
      obtain ⟨⟨⟨hopen, hcancelled⟩, hfresh⟩, rfl⟩ := hnext
      exact .signal hopen hcancelled hfresh
  | dispatch => exact step_of_dispatch? hnext
  | work i =>
      obtain ⟨c, hc, hnext⟩ := Option.bind_eq_some_iff.mp hnext
      obtain ⟨cell, hwork, hnext⟩ := Option.bind_eq_some_iff.mp hnext
      exact Option.some.inj hnext ▸ .work hc hwork

/-- What every step keeps holds after every run. -/
theorem run?_induction {Inv : Batch → Prop} {schedule : List Action}
    (hstep : ∀ b next, Step p limit b next → Inv b → Inv next)
    (hrun : b.run? p limit schedule = some next) (hb : Inv b) : Inv next := by
  induction schedule generalizing b with
  | nil => exact Option.some.inj hrun ▸ hb
  | cons action rest ih =>
      obtain ⟨after, hafter, hrun⟩ := Option.bind_eq_some_iff.mp hrun
      exact ih hrun (hstep b after (step_of_step? hafter) hb)

end Step

end Batch

/-! What the records hold. -/

/-- Where a script stands with respect to the thread that gives out the scripts. -/
inductive Phase where
  | ahead
  | named
  | passed

def Dispatcher.phase : Dispatcher → Nat → Phase
  | .looking k, i => if i < k then .passed else .ahead
  | .admitting k, i => if i < k then .passed else if i = k then .named else .ahead
  | .returned _, _ => .passed

/-- The results that a script may come to: its own, and with a cancellation also an error that
tells of it. -/
inductive Attainable (p : Pipeline) (cancelled : Bool) (script : Node) :
    Except PipelineError Output → Prop
  | alone : Attainable p cancelled script (p.run false script).result
  | cancelled {e : PipelineError} (hcancelled : cancelled = true) (he : e.IsCancellation) :
      Attainable p cancelled script (.error e)

/-- A record holds what its stage says, and a result that the script may come to. -/
inductive Cell.Sound (p : Pipeline) (cancelled : Bool) : Phase → Cell → Prop
  | ahead (input : String × Node) : Sound p cancelled .ahead { input }
  | named (input : String × Node) :
      Sound p cancelled .named { input, slot := { name := input.1 } }
  | started (input : String × Node) :
      Sound p cancelled .passed { input, slot := { name := input.1 }, stage := .started }
  | cleared (input : String × Node) :
      Sound p cancelled .passed { input, slot := { name := input.1 }, stage := .cleared }
  | compiled {input : String × Node} {result : Except PipelineError Output}
      (hresult : Attainable p cancelled input.2 result) :
      Sound p cancelled .passed
        { input, slot := { name := input.1 }, stage := .compiled result }
  | recording {input : String × Node} {result : Except PipelineError Output}
      (hresult : Attainable p cancelled input.2 result) :
      Sound p cancelled .passed
        { input, slot := { name := input.1, output := (Slot.of input.1 result).output },
          stage := .recording result }
  | ended {input : String × Node} {result : Except PipelineError Output}
      (hresult : Attainable p cancelled input.2 result) :
      Sound p cancelled .passed { input, slot := .of input.1 result, stage := .ended }

def Shipped (p : Pipeline) : Prop :=
  p.interpreter = .passthrough ∨ p.interpreter = .evaluator

/-- With a cancellation the interpreters do what they do without one, or tell of it. -/
theorem attainable_run {p : Pipeline} (hp : p.Shipped) {signalled cancelled : Bool}
    (hsignal : signalled = true → cancelled = true) (script : Node) :
    Attainable p cancelled script (p.run signalled script).result := by
  cases signalled with
  | false => exact .alone
  | true =>
      rcases hp with hpass | heval
      · have hsame : p.run true script = p.run false script := by
          simp [run, hpass, Interpreter.passthrough]
        exact hsame ▸ .alone
      · have htold : (p.run true script).result = .error (.interpret .cancelled) := by
          simp [run, heval, Interpreter.evaluator]
        exact htold ▸ .cancelled (hsignal rfl) trivial

section Cells

variable {p : Pipeline} {cancelled signalled : Bool} {c next : Cell} {phase : Phase}

theorem Attainable.of_cancelled {script : Node} {result : Except PipelineError Output}
    (hresult : Attainable p cancelled script result) : Attainable p true script result := by
  cases hresult with
  | alone => exact .alone
  | cancelled _ he => exact .cancelled rfl he

theorem Cell.Sound.of_cancelled (hc : c.Sound p cancelled phase) : c.Sound p true phase := by
  cases hc with
  | ahead input => exact .ahead input
  | named input => exact .named input
  | started input => exact .started input
  | cleared input => exact .cleared input
  | compiled hresult => exact .compiled hresult.of_cancelled
  | recording hresult => exact .recording hresult.of_cancelled
  | ended hresult => exact .ended hresult.of_cancelled

theorem Cell.Sound.work? (hp : p.Shipped) (hsignal : signalled = true → cancelled = true)
    (hc : c.Sound p cancelled phase) (hwork : c.work? p signalled = some next) :
    next.input = c.input ∧ next.Sound p cancelled phase := by
  cases hc with
  | ahead input => cases hwork
  | named input => cases hwork
  | started input =>
      cases signalled with
      | true =>
          cases hwork
          have hrefused : Attainable p cancelled input.2 (.error .cancelled) :=
            .cancelled (hsignal rfl) trivial
          exact ⟨rfl, .ended hrefused⟩
      | false =>
          cases hwork
          exact ⟨rfl, .cleared input⟩
  | cleared input =>
      cases hwork
      exact ⟨rfl, .compiled (attainable_run hp hsignal input.2)⟩
  | @compiled input result hresult =>
      cases hwork
      cases result <;> exact ⟨rfl, .recording hresult⟩
  | @recording input result hresult =>
      cases hwork
      cases result <;> exact ⟨rfl, .ended hresult⟩
  | ended hresult => cases hwork

end Cells

namespace Batch

/-- What holds in every state of a batch. -/
structure Sound (p : Pipeline) (inputs : List (String × Node)) (b : Batch) : Prop where
  inputs : b.cells.map (·.input) = inputs
  signal : b.signalled = true → b.cancelled = true
  cells : ∀ (i : Nat) (c : Cell), b.cells[i]? = some c →
    c.Sound p b.cancelled (b.dispatcher.phase i)
  admitting : ∀ i, b.dispatcher = .admitting i → i < b.cells.length
  returned : ∀ interrupted, b.dispatcher = .returned interrupted →
    interrupted = b.cancelled ∧ b.running = 0

section Sound

variable {p : Pipeline} {limit : Nat} {inputs : List (String × Node)} {b next : Batch}

theorem sound_start (p : Pipeline) (inputs : List (String × Node)) :
    (start inputs).Sound p inputs := by
  refine ⟨?_, nofun, ?_, nofun, nofun⟩
  · simp [start, Function.comp_def]
  · intro i c hc
    rw [start, List.getElem?_map, Option.map_eq_some_iff] at hc
    obtain ⟨input, -, rfl⟩ := hc
    exact .ahead input

theorem isRunning_of_work? {c cell : Cell} {signalled : Bool}
    (hwork : c.work? p signalled = some cell) : c.stage.isRunning = true := by
  unfold Cell.work? at hwork
  split at hwork
  next => cases hwork
  next => cases hwork
  next heq => rw [heq]; rfl
  next heq => rw [heq]; rfl
  next heq => rw [heq]; rfl
  next heq => rw [heq]; rfl

theorem Sound.set {i : Nat} {c cell : Cell} {d : Dispatcher} (hb : b.Sound p inputs)
    (hc : b.cells[i]? = some c) (hinput : cell.input = c.input)
    (hcell : cell.Sound p b.cancelled (d.phase i))
    (hphase : ∀ j, j ≠ i → d.phase j = b.dispatcher.phase j)
    (hadmitting : ∀ j, d = .admitting j → j < b.cells.length)
    (hopen : ∀ interrupted, d ≠ .returned interrupted) :
    Sound p inputs { b with cells := b.cells.set i cell, dispatcher := d } := by
  obtain ⟨hi, rfl⟩ := List.getElem?_eq_some_iff.mp hc
  refine ⟨?_, hb.signal, ?_, ?_, fun interrupted heq => absurd heq (hopen interrupted)⟩
  · have hsame := List.set_getElem_self (show i < (b.cells.map (·.input)).length by simpa using hi)
    rw [List.getElem_map] at hsame
    rw [List.map_set, hinput, hsame, hb.inputs]
  · intro j other hother
    by_cases hj : i = j
    · subst hj
      obtain rfl : cell = other := by simpa [hi] using hother
      exact hcell
    · rw [List.getElem?_set_ne hj] at hother
      rw [hphase j (Ne.symm hj)]
      exact hb.cells j other hother
  · simpa using hadmitting

theorem Sound.refuse {i : Nat} {c : Cell} (hb : b.Sound p inputs)
    (hlooking : b.dispatcher = .looking i) (hc : b.cells[i]? = some c)
    (hsignalled : b.signalled = true) :
    Sound p inputs
      { b with cells := b.cells.set i c.named.refuse, dispatcher := .looking (i + 1) } := by
  have hahead := hb.cells i c hc
  rw [hlooking, Dispatcher.phase, if_neg (Nat.lt_irrefl i)] at hahead
  have hrefused : Attainable p b.cancelled c.input.2 (.error .cancelled) :=
    .cancelled (hb.signal hsignalled) trivial
  refine hb.set hc rfl ?_ ?_ nofun nofun
  · rw [Dispatcher.phase, if_pos (Nat.lt_succ_self i)]
    cases hahead with
    | ahead input => exact .ended hrefused
  · intro j hj
    rw [hlooking, Dispatcher.phase, Dispatcher.phase]
    congr 1
    exact propext (by omega)

theorem Sound.name {i : Nat} {c : Cell} (hb : b.Sound p inputs)
    (hlooking : b.dispatcher = .looking i) (hc : b.cells[i]? = some c) :
    Sound p inputs { b with cells := b.cells.set i c.named, dispatcher := .admitting i } := by
  have hahead := hb.cells i c hc
  rw [hlooking, Dispatcher.phase, if_neg (Nat.lt_irrefl i)] at hahead
  refine hb.set hc rfl ?_ ?_ ?_ nofun
  · rw [Dispatcher.phase, if_neg (Nat.lt_irrefl i), if_pos rfl]
    cases hahead with
    | ahead input => exact .named input
  · intro j hj
    rw [hlooking, Dispatcher.phase, Dispatcher.phase, if_neg hj]
  · rintro j ⟨⟩
    exact (List.getElem?_eq_some_iff.mp hc).1

theorem Sound.launch {i : Nat} {c : Cell} (hb : b.Sound p inputs)
    (hadmitting : b.dispatcher = .admitting i) (hc : b.cells[i]? = some c) :
    Sound p inputs
      { b with
        cells := b.cells.set i { c with stage := .started }, dispatcher := .looking (i + 1) } := by
  have hnamed := hb.cells i c hc
  rw [hadmitting, Dispatcher.phase, if_neg (Nat.lt_irrefl i), if_pos rfl] at hnamed
  refine hb.set hc rfl ?_ ?_ nofun nofun
  · rw [Dispatcher.phase, if_pos (Nat.lt_succ_self i)]
    cases hnamed with
    | named input => exact .started input
  · intro j hj
    rw [hadmitting, Dispatcher.phase, Dispatcher.phase, if_neg hj]
    congr 1
    exact propext (by omega)

theorem Sound.work {i : Nat} {c cell : Cell} (hp : p.Shipped) (hb : b.Sound p inputs)
    (hc : b.cells[i]? = some c) (hwork : c.work? p b.signalled = some cell) :
    Sound p inputs { b with cells := b.cells.set i cell } := by
  obtain ⟨hinput, hcell⟩ := (hb.cells i c hc).work? hp hb.signal hwork
  refine hb.set hc hinput hcell (fun _ _ => rfl) hb.admitting fun interrupted hover => ?_
  -- a worker is busy, so the batch has not returned
  have hidle := (hb.returned interrupted hover).2
  rw [running, List.countP_eq_zero] at hidle
  exact hidle c (List.mem_of_getElem? hc) (isRunning_of_work? hwork)

theorem Sound.finish {i : Nat} (hb : b.Sound p inputs) (hlooking : b.dispatcher = .looking i)
    (hnone : b.cells[i]? = none) (hidle : b.running = 0) :
    Sound p inputs { b with dispatcher := .returned b.cancelled } := by
  refine ⟨hb.inputs, hb.signal, fun j c hc => ?_, nofun, ?_⟩
  · have hj : j < i :=
      Nat.lt_of_lt_of_le (List.getElem?_eq_some_iff.mp hc).1 (List.getElem?_eq_none_iff.mp hnone)
    have hpassed := hb.cells j c hc
    rwa [hlooking, Dispatcher.phase, if_pos hj] at hpassed
  · rintro interrupted ⟨⟩
    exact ⟨rfl, hidle⟩

theorem ne_returned_of_isOver (hopen : b.isOver = false) (interrupted : Bool) :
    b.dispatcher ≠ .returned interrupted := by
  intro hover
  simp [isOver, hover] at hopen

theorem Sound.step (hp : p.Shipped) (hstep : Step p limit b next) (hb : b.Sound p inputs) :
    next.Sound p inputs := by
  cases hstep with
  | cancel hopen _ =>
      exact ⟨hb.inputs, fun _ => rfl, fun i c hc => (hb.cells i c hc).of_cancelled, hb.admitting,
        fun interrupted hover => absurd hover (ne_returned_of_isOver hopen interrupted)⟩
  | signal _ hcancelled _ =>
      exact ⟨hb.inputs, fun _ => hcancelled, hb.cells, hb.admitting, hb.returned⟩
  | work hc hwork => exact hb.work hp hc hwork
  | refuse hlooking hc hsignalled => exact hb.refuse hlooking hc hsignalled
  | name hlooking hc _ => exact hb.name hlooking hc
  | launch hadmitting hc _ => exact hb.launch hadmitting hc
  | finish hlooking hnone hidle => exact hb.finish hlooking hnone hidle

theorem sound_of_run? (hp : p.Shipped) {schedule : List Action}
    (hrun : (start inputs).run? p limit schedule = some b) : b.Sound p inputs :=
  run?_induction (fun _ _ hstep hb => hb.step hp hstep) hrun (sound_start p inputs)

end Sound

end Batch

end Pipeline

end ScriptTree
