import Mathlib.Data.List.Nodup
import ScriptTree.Starlark.Program

/-!
Evaluators of a pool are lent to one holder at a time, and come back without the steps that were
taken. So an evaluation has all its steps before it, whatever the evaluator did before and whoever
else takes evaluators meanwhile.
-/

namespace ScriptTree.Starlark

namespace Pool

/-! Steps of evaluators. -/

theorem stepsOf_set (p : Pool) {e : Nat} (he : e < p.steps.length) (n e' : Nat) :
    { p with steps := p.steps.set e n }.stepsOf e' = if e = e' then n else p.stepsOf e' := by
  simp only [stepsOf, List.getElem?_set, he]
  split <;> rfl

theorem stepsOf_length (p : Pool) : p.stepsOf p.steps.length = 0 := by
  rw [stepsOf, List.getElem?_eq_none (Nat.le_refl _)]
  rfl

/-- A new evaluator has taken no steps, as an evaluator that is not there. -/
theorem stepsOf_append_zero (p : Pool) (e : Nat) :
    { p with steps := p.steps ++ [0] }.stepsOf e = p.stepsOf e := by
  rcases Nat.lt_trichotomy e p.steps.length with hlt | rfl | hgt
  · simp only [stepsOf, List.getElem?_append_left hlt]
  · rw [stepsOf_length]
    simp [stepsOf]
  · simp only [stepsOf]
    rw [List.getElem?_eq_none, List.getElem?_eq_none (Nat.le_of_lt hgt)]
    rw [List.length_append]
    exact hgt

/-! What is kept while evaluators are lent. -/

/-- Every evaluator is at rest or lent, and only once, and those at rest have taken no steps. -/
structure Sound (capacity : Nat) (lent : List Nat) (p : Pool) : Prop where
  capacity_eq : p.capacity = capacity
  size_le : p.size ≤ capacity
  nodup : (p.idle ++ lent).Nodup
  made : ∀ e ∈ p.idle ++ lent, e < p.steps.length
  rested : ∀ e ∈ p.idle, p.stepsOf e = 0

variable {capacity : Nat} {lent : List Nat} {p : Pool}

theorem sound_ofCapacity (capacity : Int) :
    (ofCapacity capacity).Sound (if capacity ≤ 0 then 8 else capacity.toNat) [] where
  capacity_eq := rfl
  size_le := Nat.zero_le _
  nodup := List.nodup_nil
  made := nofun
  rested := nofun

theorem Sound.take (hp : p.Sound capacity lent) :
    p.take.2.Sound capacity (p.take.1 :: lent) := by
  obtain ⟨hcapacity, hsize, hnodup, hmade, hrested⟩ := hp
  rw [Pool.take]
  split
  next evaluator rest hidle =>
    rw [hidle] at hnodup hmade hrested
    have hperm : (rest ++ evaluator :: lent).Perm (evaluator :: rest ++ lent) := List.perm_middle
    refine ⟨hcapacity, ?_, hperm.nodup_iff.mpr hnodup, fun e he => hmade e (hperm.mem_iff.mp he),
      fun e he => hrested e (List.mem_cons_of_mem _ he)⟩
    rw [size, hidle] at hsize
    exact Nat.le_of_succ_le hsize
  next hidle =>
    rw [hidle, List.nil_append] at hnodup hmade
    have hnew : p.steps.length ∉ lent := fun hmem => Nat.lt_irrefl _ (hmade _ hmem)
    refine ⟨hcapacity, hsize, ?_, ?_, ?_⟩
    · rw [hidle]
      exact List.nodup_cons.mpr ⟨hnew, hnodup⟩
    · rw [hidle, List.length_append]
      exact List.forall_mem_cons.mpr
        ⟨Nat.lt_succ_self _, fun e he => Nat.lt_succ_of_lt (hmade e he)⟩
    · rw [hidle]
      nofun

/-- An evaluator that is taken is not lent to another holder, and has taken no steps. -/
theorem Sound.fresh (hp : p.Sound capacity lent) :
    p.take.1 ∉ lent ∧ p.take.2.stepsOf p.take.1 = 0 := by
  refine ⟨(List.nodup_cons.mp (List.nodup_append.mp hp.take.nodup).2.1).1, ?_⟩
  rw [Pool.take]
  split
  next evaluator rest hidle => exact hp.rested evaluator (hidle ▸ List.mem_cons_self)
  next => rw [stepsOf_append_zero, stepsOf_length]

theorem Sound.work (hp : p.Sound capacity lent) {e : Nat} (he : e ∈ lent) (n : Nat) :
    (p.work e n).Sound capacity lent := by
  obtain ⟨hcapacity, hsize, hnodup, hmade, hrested⟩ := hp
  have hlt : e < p.steps.length := hmade e (List.mem_append_right _ he)
  refine ⟨hcapacity, hsize, hnodup, fun e' he' => ?_, fun e' he' => ?_⟩
  · rw [Pool.work, List.length_set]
    exact hmade e' he'
  · have hne : e ≠ e' := by
      rintro rfl
      exact List.disjoint_of_nodup_append hnodup he' he
    rw [Pool.work, stepsOf_set p hlt, if_neg hne]
    exact hrested e' he'

theorem Sound.give (hp : p.Sound capacity lent) {e : Nat} (he : e ∈ lent) :
    (p.give e).Sound capacity (lent.erase e) := by
  obtain ⟨hcapacity, hsize, hnodup, hmade, hrested⟩ := hp
  have hlt : e < p.steps.length := hmade e (List.mem_append_right _ he)
  rw [Pool.give]
  split
  next hroom =>
    have hperm : (e :: p.idle ++ lent.erase e).Perm (p.idle ++ lent) :=
      List.perm_middle.symm.trans ((List.perm_cons_erase he).symm.append_left _)
    refine ⟨hcapacity, ?_, hperm.nodup_iff.mpr hnodup, fun e' he' => ?_, fun e' he' => ?_⟩
    · rw [hcapacity] at hroom
      exact hroom
    · rw [List.length_set]
      exact hmade e' (hperm.mem_iff.mp he')
    · refine (stepsOf_set p hlt 0 e').trans ?_
      split
      next => rfl
      next hne => exact hrested e' (List.mem_of_ne_of_mem (Ne.symm hne) he')
  next hfull =>
    have hsublist : (p.idle ++ lent.erase e).Sublist (p.idle ++ lent) :=
      List.erase_sublist.append_left _
    exact ⟨hcapacity, hsize, hnodup.sublist hsublist, fun e' he' => hmade e' (hsublist.mem he'),
      hrested⟩

end Pool

/-! Lending. -/

variable {Holder : Type}

/-- A pool, and the evaluators that are lent, each with its holder. -/
structure Lending (Holder : Type) where
  pool : Pool
  held : List (Holder × Nat) := []

namespace Lending

/-- What holders do with evaluators. One that is not given back stays lent. -/
inductive Action (Holder : Type)
  | take (holder : Holder)
  | give (evaluator : Nat)
  | work (evaluator steps : Nat)

def start (capacity : Int) : Lending Holder := ⟨.ofCapacity capacity, []⟩

def lent (s : Lending Holder) : List Nat := s.held.map Prod.snd

/-- Only an evaluator that is lent comes back or takes steps. -/
def step? (s : Lending Holder) : Action Holder → Option (Lending Holder)
  | .take holder => some ⟨s.pool.take.2, (holder, s.pool.take.1) :: s.held⟩
  | .give evaluator =>
    if evaluator ∈ s.lent then
      some ⟨s.pool.give evaluator, s.held.eraseP fun loan => loan.2 == evaluator⟩
    else none
  | .work evaluator steps =>
    if evaluator ∈ s.lent then some { s with pool := s.pool.work evaluator steps } else none

def run? (s : Lending Holder) : List (Action Holder) → Option (Lending Holder)
  | [] => some s
  | action :: rest => (s.step? action).bind (·.run? rest)

variable {capacity : Nat} {s next : Lending Holder}

theorem lent_eraseP (held : List (Holder × Nat)) (e : Nat) :
    (held.eraseP fun loan => loan.2 == e).map Prod.snd = (held.map Prod.snd).erase e := by
  rw [List.erase_eq_eraseP', List.eraseP_map]
  rfl

theorem sound_step {action : Action Holder} (hs : s.pool.Sound capacity s.lent)
    (hnext : s.step? action = some next) : next.pool.Sound capacity next.lent := by
  cases action with
  | take holder =>
      cases hnext
      exact hs.take
  | give e =>
      simp only [step?, Option.ite_none_right_eq_some, Option.some.injEq] at hnext
      obtain ⟨he, rfl⟩ := hnext
      rw [lent, lent_eraseP]
      exact hs.give he
  | work e n =>
      simp only [step?, Option.ite_none_right_eq_some, Option.some.injEq] at hnext
      obtain ⟨he, rfl⟩ := hnext
      exact hs.work he n

theorem sound_run {actions : List (Action Holder)} (hs : s.pool.Sound capacity s.lent)
    (hrun : s.run? actions = some next) : next.pool.Sound capacity next.lent := by
  induction actions generalizing s with
  | nil =>
      cases hrun
      exact hs
  | cons action rest ih =>
      obtain ⟨after, hafter, hrun⟩ := Option.bind_eq_some_iff.mp hrun
      exact ih (sound_step hs hafter) hrun

end Lending

/-! Evaluations. -/

/-- An evaluator that has taken no steps gives what a new one gives. -/
theorem Program.runOn_eq_run (program : Program) {p : Pool}
    (hsteps : p.take.2.stepsOf p.take.1 = 0) (name : ByteString) :
    (program.runOn p name).1 = program.run name := by
  simp only [runOn, run, Assembly.value, hsteps]
  split <;> rfl

/-- An evaluator on which an expression fails stays lent. -/
theorem Pool.Sound.runOn {capacity : Nat} {lent : List Nat} {p : Pool}
    (hp : p.Sound capacity lent) (program : Program) (name : ByteString) :
    ∃ lent', (program.runOn p name).2.Sound capacity lent' := by
  simp only [Program.runOn]
  split
  next => exact ⟨_, hp.take⟩
  next => exact ⟨_, (hp.take.work List.mem_cons_self _).give List.mem_cons_self⟩

/-- The texts for names, one after the other by evaluators of one pool. -/
def Program.runEach (program : Program) : Pool → List ByteString → List (Result ByteString)
  | _, [] => []
  | p, name :: rest => (program.runOn p name).1 :: program.runEach (program.runOn p name).2 rest

theorem Program.runEach_eq_map (program : Program) {capacity : Nat} {lent : List Nat} {p : Pool}
    (hp : p.Sound capacity lent) (names : List ByteString) :
    program.runEach p names = names.map program.run := by
  induction names generalizing p lent with
  | nil => rfl
  | cons name rest ih =>
      obtain ⟨lent', hnext⟩ := hp.runOn program name
      rw [runEach, program.runOn_eq_run hp.fresh.2, ih hnext, List.map_cons]

namespace Lending

/-- However holders take evaluators, work and give them back: the pool keeps no more than its
capacity, keeps no evaluator twice and none that is lent, and no evaluator is lent twice. The
next one that is taken is not lent and has taken no steps, so that an expression gives there what
it gives on a new one. -/
theorem lending_exclusive (capacity : Int) {actions : List (Action Holder)} {s : Lending Holder}
    (hrun : (start capacity).run? actions = some s) :
    s.pool.size ≤ (if capacity ≤ 0 then 8 else capacity.toNat) ∧
      s.pool.idle.Nodup ∧ s.lent.Nodup ∧ s.pool.idle.Disjoint s.lent ∧
      s.pool.take.1 ∉ s.lent ∧ s.pool.take.2.stepsOf s.pool.take.1 = 0 ∧
      ∀ (program : Program) (name : ByteString),
        (program.runOn s.pool name).1 = program.run name := by
  have hsound := sound_run (Pool.sound_ofCapacity capacity) hrun
  obtain ⟨hnot, hsteps⟩ := hsound.fresh
  obtain ⟨hidle, hlent, hdisjoint⟩ := List.nodup_append'.mp hsound.nodup
  exact ⟨hsound.size_le, hidle, hlent, hdisjoint, hnot, hsteps,
    fun program => program.runOn_eq_run hsteps⟩

/-- Three evaluators are taken and one of them works; two come back, for the third there is no
room. -/
def threeTaken : List (Action String) :=
  [.take "a", .take "b", .take "c", .work 0 42, .give 0, .give 1, .give 2]

theorem lending_exclusive_threeTaken :
    ∃ s, (start 2).run? threeTaken = some s ∧ s.pool.idle = [1, 0] ∧ s.pool.size ≤ 2 ∧
      s.pool.take.1 ∉ s.lent ∧ s.pool.take.2.stepsOf s.pool.take.1 = 0 := by
  obtain ⟨s, hrun, hidle⟩ : ∃ s, (start 2).run? threeTaken = some s ∧ s.pool.idle = [1, 0] :=
    ⟨_, rfl, rfl⟩
  obtain ⟨hsize, -, -, -, hnot, hsteps, -⟩ := lending_exclusive 2 hrun
  exact ⟨s, hrun, hidle, hsize, hnot, hsteps⟩

end Lending

end ScriptTree.Starlark
