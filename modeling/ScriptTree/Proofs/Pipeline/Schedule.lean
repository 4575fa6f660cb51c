import ScriptTree.Proofs.Pipeline.Batch
import Mathlib.Algebra.BigOperators.Group.List.Basic
import Mathlib.Algebra.Order.Ring.Basic

/-!
The results of a batch do not depend on the order in which its threads take their steps, nor
on the number of workers; a cancellation can only put errors in the place of results. The
scripts one after the other come to the same.
-/

namespace ScriptTree.Pipeline

/-! Every run ends: a step takes away from what is left to do, and until the batch returns
one of its threads can take a step. -/

/-- The steps that are left for a worker. -/
def Stage.remaining : Stage → Nat
  | .waiting | .started => 4
  | .cleared => 3
  | .compiled _ => 2
  | .recording _ => 1
  | .ended => 0

/-- The steps that are left for the thread that gives out a number of scripts. -/
def Dispatcher.remaining (count : Nat) : Dispatcher → Nat
  | .looking i => 2 * (count - i) + 1
  | .admitting i => 2 * (count - i)
  | .returned _ => 0

namespace Batch

def remaining (b : Batch) : Nat :=
  (b.cells.map (·.stage.remaining)).sum + b.dispatcher.remaining b.cells.length +
    (if b.cancelled then 0 else 1) + (if b.signalled then 0 else 1)

theorem sum_map_set (f : Cell → Nat) {cells : List Cell} {i : Nat} {c : Cell} (cell : Cell)
    (hc : cells[i]? = some c) :
    ((cells.set i cell).map f).sum + f c = (cells.map f).sum + f cell := by
  induction cells generalizing i with
  | nil => cases hc
  | cons first rest ih =>
      cases i with
      | zero =>
          cases hc
          simp only [List.set_cons_zero, List.map_cons, List.sum_cons]
          omega
      | succ i =>
          have hrest := ih hc
          simp only [List.set_cons_succ, List.map_cons, List.sum_cons]
          omega

theorem remaining_of_work? {p : Pipeline} {c cell : Cell} {signalled : Bool}
    (hwork : c.work? p signalled = some cell) :
    cell.stage.remaining < c.stage.remaining := by
  unfold Cell.work? at hwork
  split at hwork
  next => cases hwork
  next => cases hwork
  next heq =>
    cases hwork
    rw [heq]
    cases signalled with
    | true => exact Nat.zero_lt_succ 3
    | false => exact Nat.lt_succ_self 3
  next heq => cases hwork; rw [heq]; exact Nat.lt_succ_self 2
  next heq => cases hwork; rw [heq]; exact Nat.lt_succ_self 1
  next heq => cases hwork; rw [heq]; exact Nat.lt_succ_self 0

section Progress

variable {p : Pipeline} {limit : Nat} {inputs : List (String × Node)} {b next : Batch}

theorem Sound.remaining_lt (hb : b.Sound p inputs) (hstep : Step p limit b next) :
    next.remaining < b.remaining := by
  cases hstep with
  | cancel _ hfresh => simp [remaining, hfresh]
  | signal _ _ hfresh => simp [remaining, hfresh]
  | @work i c cell hc hwork =>
      have hless := remaining_of_work? hwork
      have hsum := sum_map_set (·.stage.remaining) cell hc
      simp only [remaining, List.length_set]
      omega
  | @refuse i c hlooking hc _ =>
      have hi := (List.getElem?_eq_some_iff.mp hc).1
      have hsum := sum_map_set (·.stage.remaining) c.named.refuse hc
      have hended : c.named.refuse.stage.remaining = 0 := rfl
      simp only [remaining, List.length_set, hlooking, Dispatcher.remaining]
      omega
  | @name i c hlooking hc _ =>
      have hsum := sum_map_set (·.stage.remaining) c.named hc
      have hsame : c.named.stage.remaining = c.stage.remaining := rfl
      simp only [remaining, List.length_set, hlooking, Dispatcher.remaining]
      omega
  | @launch i c hadmitting hc _ =>
      have hi := (List.getElem?_eq_some_iff.mp hc).1
      have hsum := sum_map_set (·.stage.remaining) { c with stage := .started } hc
      have hstarted : ({ c with stage := .started } : Cell).stage.remaining =
          c.stage.remaining := by
        -- no worker has the script yet
        have hnamed := hb.cells i c hc
        rw [hadmitting, Dispatcher.phase, if_neg (Nat.lt_irrefl i), if_pos rfl] at hnamed
        cases hnamed with
        | named input => rfl
      simp only [remaining, List.length_set, hadmitting, Dispatcher.remaining]
      omega
  | finish hlooking _ _ => simp [remaining, hlooking, Dispatcher.remaining]

theorem Sound.length_le (hp : p.Shipped) {schedule : List Action} (hb : b.Sound p inputs)
    (hrun : b.run? p limit schedule = some next) :
    schedule.length + next.remaining ≤ b.remaining := by
  induction schedule generalizing b with
  | nil =>
      cases hrun
      simp
  | cons action rest ih =>
      obtain ⟨after, hafter, hrun⟩ := Option.bind_eq_some_iff.mp hrun
      have hstep := step_of_step? hafter
      have hless := hb.remaining_lt hstep
      have hrest := ih (hb.step hp hstep) hrun
      rw [List.length_cons]
      omega

theorem remaining_start (inputs : List (String × Node)) :
    (start inputs).remaining = 6 * inputs.length + 3 := by
  have hcells : ((start inputs).cells.map (·.stage.remaining)) =
      List.replicate inputs.length 4 := by
    simp [start, Function.comp_def, Stage.remaining, List.map_const']
  rw [remaining, hcells, List.sum_replicate_nat]
  simp only [start, Dispatcher.remaining, List.length_map, Bool.false_eq_true, if_false]
  omega

theorem exists_work (hbusy : b.running ≠ 0) : ∃ i, (b.step? p limit (.work i)).isSome := by
  obtain ⟨c, hc, hrunning⟩ := List.countP_pos_iff.mp (Nat.pos_of_ne_zero hbusy)
  obtain ⟨i, hi⟩ := List.getElem?_of_mem hc
  refine ⟨i, ?_⟩
  cases hstage : c.stage with
  | waiting => simp [hstage, Stage.isRunning] at hrunning
  | ended => simp [hstage, Stage.isRunning] at hrunning
  | started => simp [step?, hi, Cell.work?, hstage]
  | cleared => simp [step?, hi, Cell.work?, hstage]
  | compiled result => simp [step?, hi, Cell.work?, hstage]
  | recording result => simp [step?, hi, Cell.work?, hstage]

theorem Sound.exists_step (hb : b.Sound p inputs) (hlimit : 0 < limit)
    (hopen : b.isOver = false) :
    (b.step? p limit .dispatch).isSome ∨ ∃ i, (b.step? p limit (.work i)).isSome := by
  by_cases hidle : b.running = 0
  · left
    cases hdispatcher : b.dispatcher with
    | looking i => cases hc : b.cells[i]? <;> simp [step?, dispatch?, hdispatcher, hc, hidle]
    | admitting i =>
        have hi := hb.admitting i hdispatcher
        simp [step?, dispatch?, hdispatcher, hi, hidle, hlimit]
    | returned interrupted => exact absurd hdispatcher (ne_returned_of_isOver hopen interrupted)
  · exact .inr (exists_work hidle)

end Progress

/-! The results of a batch that has returned. -/

section Results

variable {p : Pipeline} {limit : Nat} {inputs : List (String × Node)} {b next : Batch}
  {interrupted : Bool}

theorem Sound.slot_of_returned (hb : b.Sound p inputs)
    (hover : b.dispatcher = .returned interrupted) {c : Cell} (hc : c ∈ b.cells) :
    ∃ result, Attainable p interrupted c.input.2 result ∧ c.slot = .of c.input.1 result := by
  obtain ⟨rfl, hidle⟩ := hb.returned interrupted hover
  have hstage := List.countP_eq_zero.mp hidle c hc
  obtain ⟨i, hi⟩ := List.getElem?_of_mem hc
  have hpassed := hb.cells i c hi
  rw [hover, Dispatcher.phase] at hpassed
  cases hpassed with
  | started input => exact absurd rfl hstage
  | cleared input => exact absurd rfl hstage
  | compiled _ => exact absurd rfl hstage
  | recording _ => exact absurd rfl hstage
  | ended hresult => exact ⟨_, hresult, rfl⟩

theorem Sound.results_eq (hb : b.Sound p inputs) (hover : b.dispatcher = .returned interrupted)
    {f : Slot → α} {g : String × Node → α}
    (hfg : ∀ input result, Attainable p interrupted input.2 result →
      f (.of input.1 result) = g input) : b.results.map f = inputs.map g := by
  rw [← hb.inputs, results, List.map_map, List.map_map]
  apply List.map_congr_left
  intro c hc
  obtain ⟨result, hresult, hslot⟩ := hb.slot_of_returned hover hc
  simp only [Function.comp_apply, hslot]
  exact hfg c.input result hresult

theorem name_of (name : String) (result : Except PipelineError Output) :
    (Slot.of name result).name = name := by
  cases result <;> rfl

theorem Sound.results_of_uninterrupted (hb : b.Sound p inputs)
    (hover : b.dispatcher = .returned false) :
    b.results = inputs.map fun i => .of i.1 (p.run false i.2).result := by
  rw [← List.map_id b.results]
  refine hb.results_eq hover fun input result hresult => ?_
  cases hresult with
  | alone => rfl
  | cancelled hcancelled _ => cases hcancelled

theorem Sound.slot_cases (hb : b.Sound p inputs) (hover : b.dispatcher = .returned interrupted)
    {i : Nat} {input : String × Node} {slot : Slot} (hinput : inputs[i]? = some input)
    (hslot : b.results[i]? = some slot) :
    slot = .of input.1 (p.run false input.2).result ∨
      interrupted = true ∧ slot.output = none ∧ ∃ e, slot.error = some e ∧ e.IsCancellation := by
  rw [← hb.inputs, List.getElem?_map, Option.map_eq_some_iff] at hinput
  obtain ⟨c, hc, rfl⟩ := hinput
  obtain rfl : c.slot = slot := by simpa [results, hc] using hslot
  obtain ⟨result, hresult, hsame⟩ := hb.slot_of_returned hover (List.mem_of_getElem? hc)
  rw [hsame]
  cases hresult with
  | alone => exact .inl rfl
  | cancelled hinterrupted he => exact .inr ⟨hinterrupted, rfl, _, rfl, he⟩

theorem Sound.slot_exclusive (hb : b.Sound p inputs)
    (hover : b.dispatcher = .returned interrupted) {slot : Slot} (hslot : slot ∈ b.results) :
    (slot.output.isSome ∧ slot.error = none) ∨ (slot.output = none ∧ slot.error.isSome) := by
  obtain ⟨c, hc, rfl⟩ := List.mem_map.mp hslot
  obtain ⟨result, -, hsame⟩ := hb.slot_of_returned hover hc
  rw [hsame]
  cases result with
  | ok output => exact .inl ⟨rfl, rfl⟩
  | error e => exact .inr ⟨rfl, rfl⟩

/-- However the steps of the threads interleave, with any number of workers and wherever a
cancellation comes: a batch ends, and its records are those of the scripts in their order.
Without a cancellation each holds what its script gives alone; with one it holds that, or an
error that tells of the cancellation and no output. It always holds an output or an error and
not both. -/
theorem results_of_schedule (hp : p.Shipped) (concurrency : Int) {processors : Nat}
    (hprocessors : 0 < processors) {schedule : List Action}
    (hrun : (start inputs).run? p (limitOf concurrency processors) schedule = some b) :
    schedule.length ≤ 6 * inputs.length + 3 ∧
      (b.isOver = false →
        (b.step? p (limitOf concurrency processors) .dispatch).isSome ∨
          ∃ i, (b.step? p (limitOf concurrency processors) (.work i)).isSome) ∧
      ∀ interrupted, b.dispatcher = .returned interrupted →
        b.results.map (·.name) = inputs.map (·.1) ∧
        (interrupted = false →
          b.results = inputs.map fun i => .of i.1 (p.run false i.2).result) ∧
        (∀ (i : Nat) (input : String × Node) (slot : Slot), inputs[i]? = some input →
          b.results[i]? = some slot →
          slot = .of input.1 (p.run false input.2).result ∨
            interrupted = true ∧ slot.output = none ∧
              ∃ e, slot.error = some e ∧ e.IsCancellation) ∧
        ∀ slot ∈ b.results,
          (slot.output.isSome ∧ slot.error = none) ∨ (slot.output = none ∧ slot.error.isSome) := by
  have hb := sound_of_run? hp hrun
  have hlimit : 0 < limitOf concurrency processors := by
    unfold limitOf
    split <;> omega
  refine ⟨?_, hb.exists_step hlimit, fun interrupted hover => ⟨?_, ?_, ?_, ?_⟩⟩
  · have hlength := (sound_start p inputs).length_le hp hrun
    rw [remaining_start] at hlength
    omega
  · exact hb.results_eq hover fun input result _ => name_of input.1 result
  · rintro rfl
    exact hb.results_of_uninterrupted hover
  · exact fun i input slot => hb.slot_cases hover
  · exact fun slot => hb.slot_exclusive hover

/-! A run with one worker at a time. The cancellation comes while the first script is
compiled, and is seen by the interpreter of the second. -/

def evaluating : Pipeline := { identifiers := .standard, interpreter := .evaluator }

def threeScripts : List (String × Node) :=
  [("a", .boolean true), ("b", .reference "x"), ("c", .boolean false)]

def cancelledMidway : List Action := [
  .dispatch, .dispatch, .work 0, .dispatch, .work 0, .cancel, .work 0, .work 0, .dispatch,
  .work 1, .signal, .work 1, .work 1, .work 1, .dispatch, .dispatch]

def cancelledMidwayEnd : Batch where
  cells := [
    ⟨("a", .boolean true), .of "a" (evaluating.run false (.boolean true)).result, .ended⟩,
    ⟨("b", .reference "x"), .of "b" (.error (.interpret .cancelled)), .ended⟩,
    ⟨("c", .boolean false), .of "c" (.error .cancelled), .ended⟩]
  dispatcher := .returned true
  cancelled := true
  signalled := true

theorem results_of_schedule_cancelledMidway :
    evaluating.Shipped ∧ 0 < 4 ∧
      (start threeScripts).run? evaluating (limitOf 1 4) cancelledMidway =
        some cancelledMidwayEnd ∧
      cancelledMidwayEnd.results.map (·.name) = ["a", "b", "c"] := by
  have hshipped : evaluating.Shipped := .inr rfl
  have hrun : (start threeScripts).run? evaluating (limitOf 1 4) cancelledMidway =
      some cancelledMidwayEnd := rfl
  exact ⟨hshipped, by decide, hrun,
    ((results_of_schedule hshipped 1 (by decide) hrun).2.2 true rfl).1⟩

end Results

/-! The scripts one after the other give the same results, without a cancellation and with one
that is seen before the first script. -/

def ofEntry (e : Entry) : Slot := .of e.name e.result

theorem result_runAll (p : Pipeline) (cancelled : Bool) (inputs : List (String × Node)) :
    (p.runAll cancelled inputs).result.map ofEntry =
      inputs.map fun i => ofEntry (p.runNamed cancelled i).result := by
  simp [runAll, Function.comp_def]

/-- A batch in which every script is refused. -/
structure Refusing (b : Batch) : Prop where
  signalled : b.signalled = true
  idle : b.running = 0
  admitting : ∀ i, b.dispatcher ≠ .admitting i
  refused : ∀ c ∈ b.cells, c.slot.output = none ∧ ∀ e, c.slot.error = some e → e = .cancelled

section Refusing

variable {p : Pipeline} {limit : Nat} {inputs : List (String × Node)} {b next : Batch}

theorem Refusing.step (hstep : Step p limit b next) (hb : b.Refusing) : next.Refusing := by
  cases hstep with
  | cancel _ _ => exact ⟨hb.signalled, hb.idle, hb.admitting, hb.refused⟩
  | signal _ _ hfresh => simp [hb.signalled] at hfresh
  | work hc hwork =>
      have hstage := List.countP_eq_zero.mp hb.idle _ (List.mem_of_getElem? hc)
      exact absurd (isRunning_of_work? hwork) hstage
  | @refuse i c hlooking hc _ =>
      refine ⟨hb.signalled, ?_, by simp, ?_⟩
      · rw [running, List.countP_eq_zero]
        intro other hother
        rcases List.mem_or_eq_of_mem_set hother with hother | rfl
        · exact List.countP_eq_zero.mp hb.idle other hother
        · simp [Cell.refuse, Stage.isRunning]
      · intro other hother
        rcases List.mem_or_eq_of_mem_set hother with hother | rfl
        · exact hb.refused other hother
        · exact ⟨(hb.refused c (List.mem_of_getElem? hc)).1, fun e he => (Option.some.inj he).symm⟩
  | name _ _ hsignalled => simp [hb.signalled] at hsignalled
  | launch hadmitting _ _ => exact absurd hadmitting (hb.admitting _)
  | finish _ _ hidle => exact ⟨hb.signalled, hidle, by simp, hb.refused⟩

theorem refusing_start (inputs : List (String × Node)) :
    Refusing { start inputs with cancelled := true, signalled := true } := by
  refine ⟨rfl, ?_, by simp [start], ?_⟩
  · simp [running, start, List.countP_eq_zero, Stage.isRunning]
  · intro c hc
    obtain ⟨input, -, rfl⟩ := List.mem_map.mp hc
    exact ⟨rfl, fun _ herror => by cases herror⟩

theorem results_eq_runAll_of_uninterrupted (hp : p.Shipped) {schedule : List Action}
    (hrun : (start inputs).run? p limit schedule = some b)
    (hover : b.dispatcher = .returned false) :
    b.results = (p.runAll false inputs).result.map ofEntry := by
  rw [result_runAll]
  exact (sound_of_run? hp hrun).results_of_uninterrupted hover

theorem results_eq_runAll_of_cancelled_first (hp : p.Shipped) {schedule : List Action}
    {interrupted : Bool}
    (hrun : (start inputs).run? p limit (.cancel :: .signal :: schedule) = some b)
    (hover : b.dispatcher = .returned interrupted) :
    b.results = (p.runAll true inputs).result.map ofEntry := by
  have hsound := sound_of_run? hp hrun
  have hrest : run? p limit { start inputs with cancelled := true, signalled := true } schedule =
      some b := hrun
  have hrefusing : b.Refusing :=
    run?_induction (fun _ _ hstep hb => hb.step hstep) hrest (refusing_start inputs)
  rw [result_runAll, ← hsound.inputs, results, List.map_map]
  apply List.map_congr_left
  intro c hc
  obtain ⟨result, -, hslot⟩ := hsound.slot_of_returned hover hc
  obtain ⟨hnone, hcancelled⟩ := hrefusing.refused c hc
  rw [hslot] at hnone hcancelled ⊢
  cases result with
  | ok output => cases hnone
  | error e =>
      rw [hcancelled e rfl]
      rfl

end Refusing

end Batch

end ScriptTree.Pipeline
