import Mathlib.Data.List.Induction
import ScriptTree.Watch

/-!
Changes are delivered once. However the steps of the threads interleave, one batch runs at a
time, and a batch is made of the watched files that were added since the changes were last
taken. So an added file is in what is taken next after it, and in nothing that is taken later
unless it is added again.
-/

namespace ScriptTree.Debouncer

/-! What a step can do. -/

inductive Step (d : Debouncer) : List Event → Debouncer → Prop
  | add (file : String) :
      Step d [.added file] { d with watch := d.watch.mark file, armed := true }
  | fire (harmed : d.armed = true) :
      Step d [] { d with armed := false, stages := d.stages ++ [.waiting] }
  | flush : Step d [] { d with stages := d.stages ++ [.waiting] }
  | stop : Step d [.stopped] { d with armed := false, stages := d.stages ++ [.stopping] }
  | lock {i : Nat} (hi : d.stages[i]? = some .waiting) (hfree : d.held = false) :
      Step d [] { d with held := true, stages := d.stages.set i .locked }
  | pause {i : Nat} (hi : d.stages[i]? = some .stopping) (hfree : d.held = false) :
      Step d [] { d with held := true, stages := d.stages.set i .releasing }
  | take {i : Nat} (hi : d.stages[i]? = some .locked) :
      Step d [.taken d.watch.batch]
        { d with
          watch := { d.watch with changed := [] }, stages := d.stages.set i (.taken d.watch.batch) }
  | skip {i : Nat} (hi : d.stages[i]? = some (.taken [])) :
      Step d [] { d with stages := d.stages.set i .releasing }
  | begin {i : Nat} {batch : List String} (hi : d.stages[i]? = some (.taken batch))
      (hne : batch ≠ []) :
      Step d [.began batch] { d with stages := d.stages.set i (.running batch) }
  | finish {i : Nat} {batch : List String} (hi : d.stages[i]? = some (.running batch)) :
      Step d [.finished batch] { d with stages := d.stages.set i .releasing }
  | release {i : Nat} (hi : d.stages[i]? = some .releasing) :
      Step d [] { d with held := false, stages := d.stages.set i .ended }

section Step

variable {d next : Debouncer}

theorem step_of_advance? {i : Nat} {stage : Stage} (hi : d.stages[i]? = some stage)
    (hnext : d.advance? i stage = some next) : Step d (d.events (.step i)) next := by
  rw [events, hi]
  cases stage with
  | waiting =>
      simp only [advance?, Option.ite_none_left_eq_some, Bool.not_eq_true, Option.some.injEq]
        at hnext
      obtain ⟨hfree, rfl⟩ := hnext
      exact .lock hi hfree
  | stopping =>
      simp only [advance?, Option.ite_none_left_eq_some, Bool.not_eq_true, Option.some.injEq]
        at hnext
      obtain ⟨hfree, rfl⟩ := hnext
      exact .pause hi hfree
  | locked =>
      cases hnext
      exact .take hi
  | taken batch =>
      cases hnext
      cases batch with
      | nil => exact .skip hi
      | cons file rest => exact .begin hi (List.cons_ne_nil file rest)
  | running batch =>
      cases hnext
      exact .finish hi
  | releasing =>
      cases hnext
      exact .release hi
  | ended => cases hnext

theorem step_of_step? {action : Action} (hnext : d.step? action = some next) :
    Step d (d.events action) next := by
  cases action with
  | add file =>
      cases hnext
      exact .add file
  | fire =>
      simp only [step?, Option.ite_none_right_eq_some, Option.some.injEq] at hnext
      obtain ⟨harmed, rfl⟩ := hnext
      exact .fire harmed
  | flush =>
      cases hnext
      exact .flush
  | stop =>
      cases hnext
      exact .stop
  | step i =>
      obtain ⟨stage, hi, hnext⟩ := Option.bind_eq_some_iff.mp hnext
      exact step_of_advance? hi hnext

theorem run?_induction {Inv : List Event → Debouncer → Prop} {schedule : List Action}
    {past later : List Event}
    (hstep : ∀ past d shown next, Step d shown next → Inv past d → Inv (past ++ shown) next)
    (hrun : d.run? schedule = some (next, later)) (hd : Inv past d) :
    Inv (past ++ later) next := by
  induction schedule generalizing d past later with
  | nil =>
      cases hrun
      rwa [List.append_nil]
  | cons action rest ih =>
      obtain ⟨after, hafter, hrun⟩ := Option.bind_eq_some_iff.mp hrun
      obtain ⟨⟨last, shown⟩, hrest, hlast⟩ := Option.bind_eq_some_iff.mp hrun
      cases hlast
      rw [← List.append_assoc]
      exact ih hrest (hstep past d _ after (step_of_step? hafter) hd)

end Step

/-! The lock. -/

namespace Stage

def holds : Stage → Bool
  | waiting | stopping | ended => false
  | locked | taken _ | running _ | releasing => true

/-- The batch that a thread has taken and is going to run. -/
def unbegun : Stage → List (List String)
  | taken batch => if batch.isEmpty then [] else [batch]
  | _ => []

def underway : Stage → List (List String)
  | running batch => [batch]
  | _ => []

theorem unbegun_of_not_holds {stage : Stage} (hstage : stage.holds = false) :
    stage.unbegun = [] := by
  cases stage with
  | taken _ => cases hstage
  | _ => rfl

theorem underway_of_not_holds {stage : Stage} (hstage : stage.holds = false) :
    stage.underway = [] := by
  cases stage with
  | running _ => cases hstage
  | _ => rfl

end Stage

/-- No thread but one has the lock. -/
def AloneAt (i : Nat) (stages : List Stage) : Prop :=
  ∀ (j : Nat) (y : Stage), stages[j]? = some y → j ≠ i → y.holds = false

/-- The lock is free and no thread has it, or it is held and one thread has it. -/
inductive Locked (d : Debouncer) : Prop
  | free (hfree : d.held = false) (hnone : ∀ y ∈ d.stages, y.holds = false) : Locked d
  | held {i : Nat} {x : Stage} (hheld : d.held = true) (hi : d.stages[i]? = some x)
      (hx : x.holds = true) (halone : AloneAt i d.stages) : Locked d

section Lock

variable {d next : Debouncer} {shown : List Event} {stages : List Stage} {i j : Nat}
  {x y : Stage}

theorem AloneAt.set (halone : AloneAt i stages) (y : Stage) : AloneAt i (stages.set i y) := by
  intro j z hj hne
  rw [List.getElem?_set_ne (Ne.symm hne)] at hj
  exact halone j z hj hne

/-- What only the thread with the lock has is all that the threads have. -/
theorem AloneAt.flatMap_eq {g : Stage → List α} (hg : ∀ y : Stage, y.holds = false → g y = [])
    (halone : AloneAt i stages) (hi : stages[i]? = some x) : stages.flatMap g = g x := by
  induction stages generalizing i with
  | nil => cases hi
  | cons first rest ih =>
      rw [List.flatMap_cons]
      cases i with
      | zero =>
          cases hi
          have hrest : rest.flatMap g = [] := by
            rw [List.flatMap_eq_nil_iff]
            intro y hy
            obtain ⟨j, hj⟩ := List.getElem?_of_mem hy
            exact hg y (halone (j + 1) y hj (Nat.succ_ne_zero j))
          rw [hrest, List.append_nil]
      | succ i =>
          have hfirst := hg first (halone 0 first rfl (Nat.succ_ne_zero i).symm)
          have hrest : AloneAt i rest := fun j y hj hne =>
            halone (j + 1) y hj (fun heq => hne (Nat.succ.inj heq))
          rw [hfirst, List.nil_append]
          exact ih hrest hi

theorem Locked.alone (hd : d.Locked) (hi : d.stages[i]? = some x) (hx : x.holds = true) :
    d.held = true ∧ AloneAt i d.stages := by
  cases hd with
  | free _ hnone => simp [hnone x (List.mem_of_getElem? hi)] at hx
  | @held k z hheld _ _ halone =>
      by_cases hk : i = k
      · exact ⟨hheld, hk ▸ halone⟩
      · simp [halone i x hi hk] at hx

theorem Locked.alone_of_free (hd : d.Locked) (hfree : d.held = false) (i : Nat) :
    AloneAt i d.stages := by
  cases hd with
  | free _ hnone => exact fun _ y hj _ => hnone y (List.mem_of_getElem? hj)
  | held hheld => simp [hheld] at hfree

theorem Locked.unique (hd : d.Locked) (hi : d.stages[i]? = some x) (hj : d.stages[j]? = some y)
    (hx : x.holds = true) (hy : y.holds = true) : i = j := by
  apply Classical.byContradiction
  intro hne
  rw [(hd.alone hi hx).2 j y hj (Ne.symm hne)] at hy
  cases hy

/-- The one thread that may have the lock comes to a stage, and the lock is held as that
stage says. -/
theorem locked_set (halone : AloneAt i d.stages) (hi : d.stages[i]? = some x) {w : Watch}
    {held : Bool} (hheld : y.holds = held) :
    Locked { d with watch := w, held := held, stages := d.stages.set i y } := by
  have hlength := (List.getElem?_eq_some_iff.mp hi).1
  have hset : (d.stages.set i y)[i]? = some y := List.getElem?_set_self hlength
  cases held with
  | true => exact .held rfl hset hheld (halone.set y)
  | false =>
      refine .free rfl fun z hz => ?_
      obtain ⟨j, hj⟩ := List.getElem?_of_mem hz
      by_cases hji : j = i
      · rw [hji, hset] at hj
        cases hj
        exact hheld
      · exact halone.set y j z hj hji

theorem Locked.append (hd : d.Locked) {w : Watch} {armed : Bool} (hy : y.holds = false) :
    Locked { d with watch := w, armed := armed, stages := d.stages ++ [y] } := by
  cases hd with
  | free hfree hnone =>
      refine .free hfree fun z hz => ?_
      rcases List.mem_append.mp hz with hz | hz
      · exact hnone z hz
      · exact List.mem_singleton.mp hz ▸ hy
  | @held i x hheld hi hx halone =>
      have hlength := (List.getElem?_eq_some_iff.mp hi).1
      refine .held hheld ((List.getElem?_append_left hlength).trans hi) hx fun j z hj hne => ?_
      rcases List.mem_append.mp (List.mem_of_getElem? hj) with hz | hz
      · by_cases hjlength : j < d.stages.length
        · rw [List.getElem?_append_left hjlength] at hj
          exact halone j z hj hne
        · have hlast : z = y := by
            rw [List.getElem?_append_right (Nat.le_of_not_lt hjlength)] at hj
            exact List.mem_singleton.mp (List.mem_of_getElem? hj)
          exact hlast ▸ hy
      · exact List.mem_singleton.mp hz ▸ hy

theorem Locked.step (hstep : Step d shown next) (hd : d.Locked) : next.Locked := by
  cases hstep with
  | add file =>
      cases hd with
      | free hfree hnone => exact .free hfree hnone
      | held hheld hi hx halone => exact .held hheld hi hx halone
  | fire _ => exact hd.append rfl
  | flush => exact hd.append rfl
  | stop => exact hd.append rfl
  | lock hi hfree => exact locked_set (hd.alone_of_free hfree _) hi rfl
  | pause hi hfree => exact locked_set (hd.alone_of_free hfree _) hi rfl
  | take hi =>
      obtain ⟨hheld, halone⟩ := hd.alone hi rfl
      exact locked_set halone hi hheld.symm
  | skip hi =>
      obtain ⟨hheld, halone⟩ := hd.alone hi rfl
      exact locked_set halone hi hheld.symm
  | begin hi _ =>
      obtain ⟨hheld, halone⟩ := hd.alone hi rfl
      exact locked_set halone hi hheld.symm
  | finish hi =>
      obtain ⟨hheld, halone⟩ := hd.alone hi rfl
      exact locked_set halone hi hheld.symm
  | release hi => exact locked_set (hd.alone hi rfl).2 hi rfl

/-- A thread that has not ended can go on, or the one that has the lock can. -/
theorem Locked.exists_step (hd : d.Locked) (hx : x ∈ d.stages) (hopen : x ≠ .ended) :
    ∃ i, (d.step? (.step i)).isSome := by
  have hholder {k : Nat} {z : Stage} (hk : d.stages[k]? = some z) (hz : z.holds = true) :
      (d.step? (.step k)).isSome := by
    cases z with
    | waiting => cases hz
    | stopping => cases hz
    | ended => cases hz
    | _ => simp [step?, hk, advance?]
  cases hd with
  | held _ hi hheld _ => exact ⟨_, hholder hi hheld⟩
  | free hfree _ =>
      obtain ⟨i, hi⟩ := List.getElem?_of_mem hx
      refine ⟨i, ?_⟩
      cases x with
      | ended => exact absurd rfl hopen
      | waiting => simp [step?, hi, advance?, hfree]
      | stopping => simp [step?, hi, advance?, hfree]
      | _ => exact hholder hi rfl

end Lock

/-! What is shown. -/

namespace Event

def isTaken : Event → Bool
  | taken _ => true
  | _ => false

end Event

def note (changed : List String) : Event → List String
  | .added file => file :: changed
  | .taken _ => []
  | _ => changed

def noted (past : List Event) : List String := past.foldl note []

/-- A file is added and the changes are not taken after that. -/
def Outstanding (past : List Event) (file : String) : Prop :=
  ∃ before after, past = before ++ .added file :: after ∧ ∀ e ∈ after, e.isTaken = false

/-- A batch is what was taken last. -/
def LastTaken (past : List Event) (batch : List String) : Prop :=
  ∃ before after, past = before ++ .taken batch :: after ∧ ∀ e ∈ after, e.isTaken = false

/-- A stop comes after every addition. -/
def Halted (past : List Event) : Prop :=
  ∃ before after, past = before ++ .stopped :: after ∧ ∀ file, .added file ∉ after

/-- The batches that were taken and are to be run. -/
def takenOf (past : List Event) : List (List String) :=
  past.filterMap fun e =>
    match e with
    | .taken batch => if batch.isEmpty then none else some batch
    | _ => none

def begunOf (past : List Event) : List (List String) :=
  past.filterMap fun e =>
    match e with
    | .began batch => some batch
    | _ => none

def finishedOf (past : List Event) : List (List String) :=
  past.filterMap fun e =>
    match e with
    | .finished batch => some batch
    | _ => none

section History

variable {past shown before after : List Event} {e x : Event} {file : String}
  {batch : List String}

theorem split_snoc (heq : past ++ [e] = before ++ x :: after) :
    (before = past ∧ x = e ∧ after = []) ∨
      ∃ rest, after = rest ++ [e] ∧ past = before ++ x :: rest := by
  rcases List.eq_nil_or_concat after with rfl | ⟨rest, last, rfl⟩
  · obtain ⟨rfl, hlast⟩ := List.append_inj' heq rfl
    exact .inl ⟨rfl, (List.cons.inj hlast).1.symm, rfl⟩
  · rw [List.concat_eq_append, ← List.cons_append, ← List.append_assoc] at heq
    obtain ⟨rfl, hlast⟩ := List.append_inj' heq rfl
    refine .inr ⟨rest, ?_, rfl⟩
    rw [List.concat_eq_append, hlast]

theorem outstanding_snoc :
    Outstanding (past ++ [e]) file ↔
      e = .added file ∨ e.isTaken = false ∧ Outstanding past file := by
  constructor
  · rintro ⟨before, after, heq, hafter⟩
    rcases split_snoc heq with ⟨-, rfl, -⟩ | ⟨rest, rfl, rfl⟩
    · exact .inl rfl
    · refine .inr ⟨hafter e (by simp), before, rest, rfl, fun e he => ?_⟩
      exact hafter e (List.mem_append_left _ he)
  · rintro (rfl | ⟨he, before, after, rfl, hafter⟩)
    · exact ⟨past, [], rfl, nofun⟩
    · refine ⟨before, after ++ [e], by simp, fun x hx => ?_⟩
      rcases List.mem_append.mp hx with hx | hx
      · exact hafter x hx
      · exact List.mem_singleton.mp hx ▸ he

theorem noted_snoc (past : List Event) (e : Event) :
    noted (past ++ [e]) = note (noted past) e := by
  rw [noted, List.foldl_append]
  rfl

theorem mem_noted_iff : file ∈ noted past ↔ Outstanding past file := by
  induction past using List.reverseRecOn with
  | nil => simp [noted, Outstanding]
  | append_singleton past e ih =>
      rw [outstanding_snoc, ← ih, noted_snoc]
      cases e with
      | added other => simp [note, Event.isTaken, eq_comm]
      | _ => simp [note, Event.isTaken]

/-- What is outstanding was added after the changes were taken. -/
theorem Outstanding.added_of_taken (hfile : Outstanding (before ++ .taken batch :: after) file) :
    .added file ∈ after := by
  have hnoted : noted (before ++ .taken batch :: after) = noted after := by
    rw [noted, List.foldl_append]
    rfl
  rw [← mem_noted_iff, hnoted, mem_noted_iff] at hfile
  obtain ⟨front, back, rfl, -⟩ := hfile
  simp

theorem takenOf_append (past shown : List Event) :
    takenOf (past ++ shown) = takenOf past ++ takenOf shown :=
  List.filterMap_append

theorem begunOf_append (past shown : List Event) :
    begunOf (past ++ shown) = begunOf past ++ begunOf shown :=
  List.filterMap_append

theorem finishedOf_append (past shown : List Event) :
    finishedOf (past ++ shown) = finishedOf past ++ finishedOf shown :=
  List.filterMap_append

theorem LastTaken.append (hlast : LastTaken past batch)
    (hshown : ∀ e ∈ shown, e.isTaken = false) : LastTaken (past ++ shown) batch := by
  obtain ⟨before, after, rfl, hafter⟩ := hlast
  refine ⟨before, after ++ shown, by simp, fun e he => ?_⟩
  rcases List.mem_append.mp he with he | he
  · exact hafter e he
  · exact hshown e he

theorem Halted.append (hhalted : Halted past) (hshown : ∀ file, .added file ∉ shown) :
    Halted (past ++ shown) := by
  obtain ⟨before, after, rfl, hafter⟩ := hhalted
  refine ⟨before, after ++ shown, by simp, fun file hfile => ?_⟩
  rcases List.mem_append.mp hfile with hfile | hfile
  · exact hafter file hfile
  · exact hshown file hfile

end History

/-! What holds after every run. -/

theorem getElem?_of_set {stages : List Stage} {i j : Nat} {x y : Stage}
    (hj : (stages.set i x)[j]? = some y) (hne : y ≠ x) : stages[j]? = some y := by
  rw [List.getElem?_set] at hj
  split at hj
  next => exact absurd (by simpa using hj : _ ∧ x = y).2.symm hne
  next => exact hj

theorem getElem?_of_append {stages : List Stage} {j : Nat} {x y : Stage}
    (hj : (stages ++ [x])[j]? = some y) (hne : y ≠ x) : stages[j]? = some y := by
  rw [List.getElem?_append] at hj
  split at hj
  next => exact hj
  next => exact absurd (List.mem_singleton.mp (List.mem_of_getElem? hj)) hne

/-- The changes are the files added since they were last taken, and what was taken are the
watched files among those that were added before. -/
structure Noted (files : List String) (past : List Event) (d : Debouncer) : Prop where
  watched : d.watch.files = files
  changed : d.watch.changed = noted past
  taken : ∀ before batch after, past = before ++ .taken batch :: after →
    batch = files.filter (noted before).contains

/-- A thread runs what was taken last, and only if there is something to run. -/
structure Current (past : List Event) (d : Debouncer) : Prop where
  taken : ∀ (i : Nat) (batch : List String), d.stages[i]? = some (.taken batch) →
    LastTaken past batch
  began : ∀ before batch after, past = before ++ .began batch :: after →
    batch ≠ [] ∧ LastTaken before batch

/-- What was taken is run in the same order and nothing else is, one after the other. -/
structure Sequential (past : List Event) (d : Debouncer) : Prop where
  taken : takenOf past = begunOf past ++ d.stages.flatMap Stage.unbegun
  began : begunOf past = finishedOf past ++ d.stages.flatMap Stage.underway

/-- The changes are going to be taken: the timer runs, or a flush has not taken them yet. -/
def Expected (d : Debouncer) : Prop :=
  d.armed = true ∨ .waiting ∈ d.stages ∨ .locked ∈ d.stages

section Invariants

variable {files : List String} {past shown : List Event} {d next : Debouncer}

theorem Noted.step (hstep : Step d shown next) (hd : Noted files past d) :
    Noted files (past ++ shown) next := by
  have hquiet {next : Debouncer} (hwatch : next.watch = d.watch) : Noted files past next :=
    ⟨hwatch ▸ hd.watched, hwatch ▸ hd.changed, hd.taken⟩
  have hother {e : Event} (he : e.isTaken = false) (before : List Event) (batch : List String)
      (after : List Event) (heq : past ++ [e] = before ++ .taken batch :: after) :
      batch = files.filter (noted before).contains := by
    rcases split_snoc heq with ⟨-, rfl, -⟩ | ⟨rest, -, hpast⟩
    · cases he
    · exact hd.taken before batch rest hpast
  cases hstep with
  | add file =>
      refine ⟨hd.watched, ?_, hother rfl⟩
      rw [noted_snoc]
      exact congrArg (file :: ·) hd.changed
  | stop => exact ⟨hd.watched, noted_snoc past _ ▸ hd.changed, hother rfl⟩
  | begin _ _ => exact ⟨hd.watched, noted_snoc past _ ▸ hd.changed, hother rfl⟩
  | finish _ => exact ⟨hd.watched, noted_snoc past _ ▸ hd.changed, hother rfl⟩
  | take hi =>
      refine ⟨hd.watched, noted_snoc past _ ▸ rfl, fun before batch after heq => ?_⟩
      rcases split_snoc heq with ⟨rfl, hbatch, -⟩ | ⟨rest, -, hpast⟩
      · cases hbatch
        rw [Watch.batch, hd.watched, hd.changed]
      · exact hd.taken before batch rest hpast
  | _ =>
      rw [List.append_nil]
      exact hquiet rfl

theorem Current.step (hlocked : d.Locked) (hstep : Step d shown next) (hd : Current past d) :
    Current (past ++ shown) next := by
  have hother {e : Event} (he : ∀ batch, e ≠ .began batch) (before : List Event)
      (batch : List String) (after : List Event)
      (heq : past ++ [e] = before ++ .began batch :: after) :
      batch ≠ [] ∧ LastTaken before batch := by
    rcases split_snoc heq with ⟨-, hlast, -⟩ | ⟨rest, -, hpast⟩
    · exact absurd hlast.symm (he batch)
    · exact hd.began before batch rest hpast
  have hkept {stages : List Stage}
      (hstages : ∀ (j : Nat) (batch : List String), stages[j]? = some (.taken batch) →
        d.stages[j]? = some (.taken batch)) (hshown : ∀ e ∈ shown, e.isTaken = false)
      (j : Nat) (batch : List String) (hj : stages[j]? = some (.taken batch)) :
      LastTaken (past ++ shown) batch :=
    (hd.taken j batch (hstages j batch hj)).append hshown
  cases hstep with
  | add file => exact ⟨hkept (fun _ _ => id) (by simp [Event.isTaken]), hother nofun⟩
  | stop =>
      refine ⟨hkept (fun j batch hj => ?_) (by simp [Event.isTaken]), hother nofun⟩
      exact getElem?_of_append hj nofun
  | begin hi hne =>
      refine ⟨hkept (fun j batch hj => ?_) (by simp [Event.isTaken]),
        fun before batch after heq => ?_⟩
      · exact getElem?_of_set hj nofun
      · rcases split_snoc heq with ⟨rfl, hlast, -⟩ | ⟨rest, -, hpast⟩
        · cases hlast
          exact ⟨hne, hd.taken _ _ hi⟩
        · exact hd.began before batch rest hpast
  | finish _ =>
      refine ⟨hkept (fun j batch hj => ?_) (by simp [Event.isTaken]), hother nofun⟩
      exact getElem?_of_set hj nofun
  | @take i hi =>
      refine ⟨fun j batch hj => ?_, hother nofun⟩
      by_cases heq : Stage.taken batch = .taken d.watch.batch
      · cases heq
        exact ⟨past, [], rfl, nofun⟩
      · -- another thread would have the lock as well
        have hj := getElem?_of_set hj heq
        have hsame := hlocked.unique hi hj rfl rfl
        rw [hsame, hj] at hi
        cases hi
  | fire _ =>
      rw [List.append_nil]
      exact ⟨fun j batch hj => hd.taken j batch (getElem?_of_append hj nofun), hd.began⟩
  | flush =>
      rw [List.append_nil]
      exact ⟨fun j batch hj => hd.taken j batch (getElem?_of_append hj nofun), hd.began⟩
  | _ =>
      rw [List.append_nil]
      exact ⟨fun j batch hj => hd.taken j batch (getElem?_of_set hj nofun), hd.began⟩

/-- If one thread at most has to do with a batch, what it takes on and gives up is what the step
shows. -/
theorem Sequential.set (hd : Sequential past d) {i : Nat} {x y : Stage} {w : Watch} {held : Bool}
    (halone : AloneAt i d.stages) (hi : d.stages[i]? = some x)
    (htaken : x.unbegun ++ takenOf shown = begunOf shown ++ y.unbegun)
    (hbegan : x.underway ++ begunOf shown = finishedOf shown ++ y.underway) :
    Sequential (past ++ shown) { d with watch := w, held := held, stages := d.stages.set i y } := by
  have hunbegun (z : Stage) : z.holds = false → z.unbegun = [] := z.unbegun_of_not_holds
  have hunderway (z : Stage) : z.holds = false → z.underway = [] := z.underway_of_not_holds
  have hy := List.getElem?_set_self (a := y) (List.getElem?_eq_some_iff.mp hi).1
  constructor
  · change takenOf _ = begunOf _ ++ (d.stages.set i y).flatMap Stage.unbegun
    rw [(halone.set y).flatMap_eq hunbegun hy, takenOf_append, hd.taken,
      halone.flatMap_eq hunbegun hi, List.append_assoc, htaken, begunOf_append,
      List.append_assoc]
  · change begunOf _ = finishedOf _ ++ (d.stages.set i y).flatMap Stage.underway
    rw [(halone.set y).flatMap_eq hunderway hy, begunOf_append, hd.began,
      halone.flatMap_eq hunderway hi, List.append_assoc, hbegan, finishedOf_append,
      List.append_assoc]

theorem Sequential.append (hd : Sequential past d) {x : Stage} {armed : Bool}
    (hx : x.holds = false) (htaken : takenOf shown = []) (hbegan : begunOf shown = [])
    (hfinished : finishedOf shown = []) :
    Sequential (past ++ shown) { d with armed := armed, stages := d.stages ++ [x] } := by
  constructor
  · rw [takenOf_append, begunOf_append, htaken, hbegan, hd.taken]
    simp [x.unbegun_of_not_holds hx]
  · rw [begunOf_append, finishedOf_append, hbegan, hfinished, hd.began]
    simp [x.underway_of_not_holds hx]

theorem Sequential.step (hlocked : d.Locked) (hstep : Step d shown next)
    (hd : Sequential past d) : Sequential (past ++ shown) next := by
  cases hstep with
  | add file => exact ⟨by simpa [takenOf, begunOf] using hd.taken,
      by simpa [begunOf, finishedOf] using hd.began⟩
  | fire _ => exact hd.append rfl rfl rfl rfl
  | flush => exact hd.append rfl rfl rfl rfl
  | stop => exact hd.append rfl rfl rfl rfl
  | lock hi hfree => exact hd.set (hlocked.alone_of_free hfree _) hi rfl rfl
  | pause hi hfree => exact hd.set (hlocked.alone_of_free hfree _) hi rfl rfl
  | take hi =>
      refine hd.set (hlocked.alone hi rfl).2 hi ?_ rfl
      cases d.watch.batch <;> rfl
  | skip hi => exact hd.set (hlocked.alone hi rfl).2 hi rfl rfl
  | @begin i batch hi hne =>
      refine hd.set (hlocked.alone hi rfl).2 hi ?_ rfl
      cases batch with
      | nil => exact absurd rfl hne
      | cons file rest => rfl
  | finish hi => exact hd.set (hlocked.alone hi rfl).2 hi rfl rfl
  | release hi => exact hd.set (hlocked.alone hi rfl).2 hi rfl rfl

theorem Expected.set {i : Nat} {x y : Stage} {held : Bool} (hd : d.Expected)
    (hi : d.stages[i]? = some x) (hwaiting : x ≠ .waiting) (hlocked : x ≠ .locked) :
    Expected { d with held := held, stages := d.stages.set i y } := by
  have hkept {z : Stage} (hz : z ∈ d.stages) (hne : x ≠ z) : z ∈ d.stages.set i y := by
    obtain ⟨j, hj⟩ := List.getElem?_of_mem hz
    have hij : i ≠ j := by
      rintro rfl
      exact hne (Option.some.inj (hi.symm.trans hj))
    exact List.mem_of_getElem? ((List.getElem?_set_ne hij).trans hj)
  rcases hd with harmed | hz | hz
  · exact .inl harmed
  · exact .inr (.inl (hkept hz hwaiting))
  · exact .inr (.inr (hkept hz hlocked))

theorem expected_step (hstep : Step d shown next)
    (hd : noted past ≠ [] → d.Expected ∨ Halted past) :
    noted (past ++ shown) ≠ [] → next.Expected ∨ Halted (past ++ shown) := by
  intro hnoted
  have hset {i : Nat} {x y : Stage} {held : Bool} {shown : List Event}
      (hi : d.stages[i]? = some x) (hwaiting : x ≠ .waiting) (hlocked : x ≠ .locked)
      (hsame : noted past ≠ []) (hshown : ∀ file, .added file ∉ shown) :
      Expected { d with held := held, stages := d.stages.set i y } ∨ Halted (past ++ shown) := by
    rcases hd hsame with hexpected | hhalted
    · exact .inl (hexpected.set hi hwaiting hlocked)
    · exact .inr (hhalted.append hshown)
  cases hstep with
  | add file => exact .inl (.inl rfl)
  | fire _ => exact .inl (.inr (.inl (by simp)))
  | flush => exact .inl (.inr (.inl (by simp)))
  | stop => exact .inr ⟨past, [], rfl, fun _ => List.not_mem_nil⟩
  | lock hi _ =>
      have hlocked : Stage.locked ∈ d.stages.set _ .locked :=
        List.mem_set (List.getElem?_eq_some_iff.mp hi).1 .locked
      exact .inl (.inr (.inr hlocked))
  | take _ =>
      rw [noted_snoc] at hnoted
      exact absurd rfl hnoted
  | begin hi _ =>
      rw [noted_snoc] at hnoted
      exact hset hi nofun nofun hnoted (by simp)
  | finish hi =>
      rw [noted_snoc] at hnoted
      exact hset hi nofun nofun hnoted (by simp)
  | pause hi _ =>
      rw [List.append_nil] at hnoted
      exact hset hi nofun nofun hnoted (by simp)
  | skip hi =>
      rw [List.append_nil] at hnoted
      exact hset hi nofun nofun hnoted (by simp)
  | release hi =>
      rw [List.append_nil] at hnoted
      exact hset hi nofun nofun hnoted (by simp)

/-- All that holds after a run. -/
structure Sound (files : List String) (past : List Event) (d : Debouncer) : Prop where
  noted : Noted files past d
  locked : d.Locked
  current : Current past d
  sequential : Sequential past d
  expected : Debouncer.noted past ≠ [] → d.Expected ∨ Halted past

theorem Sound.step (hstep : Step d shown next) (hd : Sound files past d) :
    Sound files (past ++ shown) next :=
  ⟨hd.noted.step hstep, hd.locked.step hstep, hd.current.step hd.locked hstep,
    hd.sequential.step hd.locked hstep, expected_step hstep hd.expected⟩

theorem sound_start (files : List String) : Sound files [] (start files) where
  noted := ⟨rfl, rfl, by simp⟩
  locked := .free rfl nofun
  current := ⟨by simp [start], by simp⟩
  sequential := ⟨rfl, rfl⟩
  expected := absurd rfl

theorem sound_of_run? {schedule : List Action} {history : List Event}
    (hrun : (start files).run? schedule = some (d, history)) : Sound files history d :=
  run?_induction (fun _ _ _ _ hstep hd => hd.step hstep) hrun (sound_start files)

end Invariants

section Delivery

variable {files : List String} {history : List Event} {d : Debouncer}

theorem Sound.mem_of_taken (hd : Sound files history d) {before after : List Event}
    {batch : List String} (hhistory : history = before ++ .taken batch :: after) (file : String) :
    file ∈ batch ↔ file ∈ files ∧ Outstanding before file := by
  rw [hd.noted.taken before batch after hhistory, List.mem_filter, List.contains_iff_mem,
    mem_noted_iff]

theorem Sound.batch_of_began (hd : Sound files history d) (hfiles : files.Nodup)
    {before after : List Event} {batch : List String}
    (hhistory : history = before ++ .began batch :: after) :
    batch ≠ [] ∧ batch.Nodup ∧ batch.Sublist files ∧
      ∃ earlier since, before = earlier ++ .taken batch :: since ∧
        (∀ e ∈ since, e.isTaken = false) ∧
        ∀ file, file ∈ batch ↔ file ∈ files ∧ Outstanding earlier file := by
  obtain ⟨hne, earlier, since, rfl, hsince⟩ := hd.current.began before batch after hhistory
  have htaken : history = earlier ++ .taken batch :: (since ++ .began batch :: after) := by
    rw [hhistory]
    simp
  have hsublist : batch.Sublist files := by
    rw [hd.noted.taken earlier batch _ htaken]
    exact List.filter_sublist
  exact ⟨hne, hfiles.sublist hsublist, hsublist, earlier, since, rfl, hsince,
    hd.mem_of_taken htaken⟩

/-- However the steps interleave, at most one batch runs at a time, and what is taken is run
in the order in which it was taken. A batch that is run is not empty, and is made of the
watched files that were added since the changes were taken before, in the order of the
arguments. An added file is in what is taken next, and is taken again only if it is added
again. Until it is taken a flush is to come, except after a stop, and no thread waits for
ever. -/
theorem batches_of_schedule (hfiles : files.Nodup) {schedule : List Action}
    (hrun : (start files).run? schedule = some (d, history)) :
    (∀ (i j : Nat) (first second : List String), d.stages[i]? = some (.running first) →
      d.stages[j]? = some (.running second) → i = j) ∧
    takenOf history = begunOf history ++ d.stages.flatMap Stage.unbegun ∧
    begunOf history = finishedOf history ++ d.stages.flatMap Stage.underway ∧
    (∀ before batch after, history = before ++ .began batch :: after →
      batch ≠ [] ∧ batch.Nodup ∧ batch.Sublist files ∧
        ∃ earlier since, before = earlier ++ .taken batch :: since ∧
          (∀ e ∈ since, e.isTaken = false) ∧
          ∀ file, file ∈ batch ↔ file ∈ files ∧ Outstanding earlier file) ∧
    (∀ before file between batch after,
      history = before ++ .added file :: (between ++ .taken batch :: after) →
      (∀ e ∈ between, e.isTaken = false) → file ∈ files → file ∈ batch) ∧
    (∀ before first between second after,
      history = before ++ .taken first :: (between ++ .taken second :: after) →
      ∀ file ∈ second, .added file ∈ between) ∧
    (∀ file, Outstanding history file → d.Expected ∨ Halted history) ∧
    ∀ x ∈ d.stages, x ≠ .ended → ∃ i, (d.step? (.step i)).isSome := by
  have hd := sound_of_run? hrun
  refine ⟨?_, hd.sequential.taken, hd.sequential.began, ?_, ?_, ?_, ?_, ?_⟩
  · intro i j first second hi hj
    exact hd.locked.unique hi hj rfl rfl
  · intro before batch after hhistory
    exact hd.batch_of_began hfiles hhistory
  · intro before file between batch after hhistory hbetween hfile
    rw [← List.cons_append, ← List.append_assoc] at hhistory
    exact (hd.mem_of_taken hhistory file).mpr ⟨hfile, before, between, rfl, hbetween⟩
  · intro before first between second after hhistory file hfile
    rw [← List.cons_append, ← List.append_assoc] at hhistory
    exact ((hd.mem_of_taken hhistory file).mp hfile).2.added_of_taken
  · intro file hfile
    exact hd.expected (List.ne_nil_of_mem (mem_noted_iff.mpr hfile))
  · intro x hx hopen
    exact hd.locked.exists_step hx hopen

end Delivery

/-! A change comes while a batch runs, and a flush that waits for the lock takes it. -/

def overlapping : List Action := [
  .add "b", .fire, .add "a", .flush, .step 0, .step 0, .step 0, .add "b", .stop, .step 0,
  .step 0, .step 1, .step 1, .step 1]

def overlappingEnd : Debouncer where
  watch := { files := ["a", "b"] }
  held := true
  stages := [.ended, .running ["b"], .stopping]

def overlappingHistory : List Event := [
  .added "b", .added "a", .taken ["a", "b"], .began ["a", "b"], .added "b", .stopped,
  .finished ["a", "b"], .taken ["b"], .began ["b"]]

theorem batches_of_schedule_overlapping :
    ["a", "b"].Nodup ∧
      (start ["a", "b"]).run? overlapping = some (overlappingEnd, overlappingHistory) ∧
      takenOf overlappingHistory = begunOf overlappingHistory ∧
      begunOf overlappingHistory = finishedOf overlappingHistory ++ [["b"]] := by
  have hfiles : ["a", "b"].Nodup := by decide
  have hrun : (start ["a", "b"]).run? overlapping = some (overlappingEnd, overlappingHistory) := by
    decide
  obtain ⟨-, htaken, hbegan, -⟩ := batches_of_schedule hfiles hrun
  exact ⟨hfiles, hrun, htaken.trans (List.append_nil _), hbegan⟩

end ScriptTree.Debouncer
