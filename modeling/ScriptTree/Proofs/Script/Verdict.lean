import ScriptTree.Proofs.Script.Position
import ScriptTree.Script.Evaluate

/-!
Evaluation up to the first problem. The verdict on a script is its value, or the first problem in
the order of evaluation with the place that is evaluated when it is met. Evaluation reports that
problem first. It reports nothing else and has no value, unless a sum stands above the place: a
sum goes on without the values of its operands.
-/

namespace ScriptTree

/-- A finding about a part, as seen from where the path starts. -/
def Finding.under (path : Path) (f : Finding) : Finding := { f with path := path ++ f.path }

/-- Where and why evaluation cannot go on. The path of the finding starts at the place. -/
structure Stop where
  place : Path
  finding : Finding
deriving DecidableEq

namespace Stop

def below (s : Segment) (stop : Stop) : Stop := { stop with place := s :: stop.place }

/-- What is reported of a script that stands at the path. -/
def report (path : Path) (stop : Stop) : Finding := stop.finding.under (path ++ stop.place)

theorem report_below (path : Path) (s : Segment) (stop : Stop) :
    (stop.below s).report path = stop.report (path ++ [s]) := by
  simp [report, below]

theorem report_here (path : Path) (f : Finding) : (⟨[], f⟩ : Stop).report path = f.under path := by
  simp [report]

end Stop

/-! Operands with values. -/

def totalOnto (total : Number) : List Literal → Number
  | [] => total
  | .number x :: rest => totalOnto (total + x) rest
  | .boolean _ :: rest => totalOnto total rest

def sumVerdict (values : List Literal) : Except Stop Literal :=
  match mismatchFrom? [] .number 0 values with
  | some f => .error ⟨[], f⟩
  | none => .ok (.number (totalOnto .zero values))

def equalityVerdict : List Literal → Except Stop Literal
  | [] => .ok (.boolean true)
  | first :: others =>
    match mismatchFrom? [] first.type 1 others with
    | some f => .error ⟨[], f⟩
    | none => .ok (.boolean (others.all (·.equals first)))

theorem mismatchFrom?_under (path : Path) (expected : ValueType) (i : Nat) (values : List Literal) :
    mismatchFrom? path expected i values =
      (mismatchFrom? [] expected i values).map (·.under path) := by
  induction values generalizing i with
  | nil => rfl
  | cons v rest ih =>
      rw [mismatchFrom?, mismatchFrom?]
      by_cases htype : v.type = expected
      · rw [if_pos htype, if_pos htype, ih]
      · rw [if_neg htype, if_neg htype]
        rfl

theorem sumFrom_eq (path : Path) (total : Number) (i : Nat) (values : List Literal) :
    sumFrom path total i values =
      match mismatchFrom? path .number i values with
      | some f => ⟨none, [f]⟩
      | none => .done (.number (totalOnto total values)) := by
  induction values generalizing total i with
  | nil => rfl
  | cons v rest ih =>
      cases v with
      | boolean b => rfl
      | number x =>
          have htype : (Literal.number x).type = .number := rfl
          rw [sumFrom, ih, mismatchFrom?, if_pos htype, totalOnto]

namespace Evaluation

variable {α β : Type}

/-- Goes on with the value of an evaluation, if it has one. -/
def andThen (e : Evaluation α) (next : α → Evaluation β) : Evaluation β :=
  match e.result with
  | none => ⟨none, e.findings⟩
  | some v => (next v).after e.findings

theorem result_andThen (e : Evaluation α) (next : α → Evaluation β) :
    (e.andThen next).result = e.result.bind fun v => (next v).result := by
  rw [andThen]
  cases e.result <;> rfl

theorem forall_findings_andThen {e : Evaluation α} {next : α → Evaluation β} {p : Finding → Prop}
    (hfirst : ∀ f ∈ e.findings, p f)
    (hnext : ∀ v, e.result = some v → ∀ f ∈ (next v).findings, p f) :
    ∀ f ∈ (e.andThen next).findings, p f := by
  rw [andThen]
  cases hv : e.result with
  | none => exact hfirst
  | some v => exact List.forall_mem_append.mpr ⟨hfirst, hnext v hv⟩

end Evaluation

namespace Node

/-- What a logical operation comes to at an operand with the value: the operand decides, or leaves
that to the operands after it. -/
def ruled (path : Path) (identity : Bool) (i : Nat) (later : Evaluation Literal) :
    Literal → Evaluation Literal
  | .number _ => .found (path ++ [.child i]) (.mismatch .boolean .number)
  | .boolean b => if b = identity then later else .done (.boolean b)

theorem decideFrom_cons (path : Path) (identity : Bool) (i : Nat) (n : Node) (rest : List Node) :
    decideFrom path identity i (n :: rest) =
      (n.evaluate (path ++ [.child i])).andThen
        (ruled path identity i (decideFrom path identity (i + 1) rest)) := by
  rw [decideFrom, Evaluation.andThen]
  generalize n.evaluate (path ++ [.child i]) = e
  match e with
  | ⟨none, _⟩ => rfl
  | ⟨some (.number _), _⟩ => rfl
  | ⟨some (.boolean b), findings⟩ =>
      by_cases hdecides : b = identity
      · simp [ruled, hdecides]
      · simp [ruled, hdecides, Evaluation.done, Evaluation.after]

theorem operandsFrom_cons (path : Path) (i : Nat) (n : Node) (rest : List Node) :
    operandsFrom path i (n :: rest) =
      (n.evaluate (path ++ [.child i])).andThen fun v =>
        ⟨(operandsFrom path (i + 1) rest).result.map (v :: ·),
          (operandsFrom path (i + 1) rest).findings⟩ := by
  rw [operandsFrom, Evaluation.andThen]
  cases (n.evaluate (path ++ [.child i])).result <;> rfl

theorem operandsFrom_cons_result {path : Path} {i : Nat} {n : Node} {rest : List Node}
    {values : List Literal}
    (hresult : (operandsFrom path i (n :: rest)).result = some values) :
    ∃ v later, (n.evaluate (path ++ [.child i])).result = some v ∧
      (operandsFrom path (i + 1) rest).result = some later ∧ values = v :: later := by
  rw [operandsFrom_cons, Evaluation.result_andThen, Option.bind_eq_some_iff] at hresult
  obtain ⟨v, hvalue, hmap⟩ := hresult
  obtain ⟨later, hlater, rfl⟩ := Option.map_eq_some_iff.mp hmap
  exact ⟨v, later, hvalue, hlater, rfl⟩

mutual

/-- The value of a script, if evaluation stops at the first problem. -/
def verdict : Node → Except Stop Literal
  | missing _ => .error ⟨[], [], .missing⟩
  | boolean value => .ok (.boolean value)
  | number value => .ok (.number value)
  | reference name => .error ⟨[], [], .unbound name⟩
  | operation .and operands => decision true 0 operands
  | operation .or operands => decision false 0 operands
  | operation .sum operands => (verdicts 0 operands).bind sumVerdict
  | operation .equal operands => (verdicts 0 operands).bind equalityVerdict
  | function name _ _ => .error ⟨[], [], .functionValue name⟩
  | unrecognized tag _ => .error ⟨[], [], .unknown tag⟩

/-- The first operand, from index `i` on, that differs from `identity`. -/
def decision (identity : Bool) (i : Nat) : List Node → Except Stop Literal
  | [] => .ok (.boolean identity)
  | n :: rest =>
    match n.verdict with
    | .error stop => .error (stop.below (.child i))
    | .ok (.number _) => .error ⟨[], [.child i], .mismatch .boolean .number⟩
    | .ok (.boolean b) => if b = identity then decision identity (i + 1) rest else .ok (.boolean b)

def verdicts (i : Nat) : List Node → Except Stop (List Literal)
  | [] => .ok []
  | n :: rest =>
    match n.verdict with
    | .error stop => .error (stop.below (.child i))
    | .ok v => (verdicts (i + 1) rest).map (v :: ·)

end

/-- The verdict on a logical operation at an operand with the value. -/
def ruling (identity : Bool) (i : Nat) (later : Except Stop Literal) :
    Literal → Except Stop Literal
  | .number _ => .error ⟨[], [.child i], .mismatch .boolean .number⟩
  | .boolean b => if b = identity then later else .ok (.boolean b)

theorem decision_cons (identity : Bool) (i : Nat) (n : Node) (rest : List Node) :
    decision identity i (n :: rest) = (n.verdict.mapError (Stop.below (.child i))).bind
      (ruling identity i (decision identity (i + 1) rest)) := by
  rw [decision]
  match n.verdict with
  | .error _ => rfl
  | .ok (.number _) => rfl
  | .ok (.boolean _) => rfl

theorem verdicts_cons (i : Nat) (n : Node) (rest : List Node) :
    verdicts i (n :: rest) = (n.verdict.mapError (Stop.below (.child i))).bind fun v =>
      (verdicts (i + 1) rest).map (v :: ·) := by
  rw [verdicts]
  cases n.verdict <;> rfl

def IsSum (n : Node) : Prop := ∃ operands, n = operation .sum operands

/-- A sum stands above the place. -/
def BelowSum (n : Node) (p : Path) : Prop := n.Below IsSum p

/-- A sum stands above the place, itself below one of the operands. -/
def BelowSumAmong (operands : List Node) (p : Path) : Prop :=
  ∃ i m q, p = .child i :: q ∧ operands[i]? = some m ∧ m.BelowSum q

theorem not_belowSum_nil (n : Node) : ¬ n.BelowSum [] := not_below_nil _ n

theorem not_belowSumAmong_nil (operands : List Node) : ¬ BelowSumAmong operands [] := by
  intro hsum
  obtain ⟨i, m, q, hnil, -⟩ := hsum
  cases hnil

theorem belowSumAmong_cons {operands : List Node} {i : Nat} {p : Path} :
    BelowSumAmong operands (.child i :: p) ↔ ∃ m, operands[i]? = some m ∧ m.BelowSum p := by
  constructor
  · intro hsum
    obtain ⟨j, m, q, hp, hm, hbelow⟩ := hsum
    obtain ⟨hij, rfl⟩ := List.cons.inj hp
    obtain rfl : i = j := Segment.child.inj hij
    exact ⟨m, hm, hbelow⟩
  · intro hsum
    obtain ⟨m, hm, hbelow⟩ := hsum
    exact ⟨i, m, p, rfl, hm, hbelow⟩

theorem belowSumAmong_child {operands : List Node} {i : Nat} {m : Node}
    (hm : operands[i]? = some m) (p : Path) :
    BelowSumAmong operands (.child i :: p) ↔ m.BelowSum p := by
  simp [belowSumAmong_cons, hm]

theorem belowSum_operation {op : Operation} {operands : List Node} {p : Path} :
    (operation op operands).BelowSum p ↔ (op = .sum ∧ p ≠ []) ∨ BelowSumAmong operands p := by
  have hroot : (operation op operands).IsSum ↔ op = .sum := by simp [IsSum]
  cases p with
  | nil => simp [not_belowSum_nil, not_belowSumAmong_nil]
  | cons s q =>
      rw [BelowSum, below_cons, hroot]
      cases s with
      | child i => simp [child?, belowSumAmong_cons, BelowSum]
      | field name => simp [child?, BelowSumAmong]
      | parameter i => simp [child?, BelowSumAmong]

theorem place_ne_nil_of_verdicts {i : Nat} {operands : List Node} {stop : Stop}
    (hstop : verdicts i operands = .error stop) : stop.place ≠ [] := by
  induction operands generalizing i with
  | nil => cases hstop
  | cons n rest ih =>
      rw [verdicts] at hstop
      cases hn : n.verdict with
      | error first =>
          rw [hn] at hstop
          obtain rfl := Except.error.inj hstop
          exact List.cons_ne_nil _ _
      | ok v =>
          rw [hn] at hstop
          cases hrest : verdicts (i + 1) rest with
          | error later =>
              rw [hrest] at hstop
              obtain rfl := Except.error.inj hstop
              exact ih hrest
          | ok values =>
              rw [hrest] at hstop
              cases hstop

end Node

namespace Evaluation

/-- The evaluation of an operation that needs the values of all its operands. Where one is missing,
the fallback is taken. -/
def settled (fallback : Option Literal) (result : List Literal → Evaluation Literal)
    (e : Evaluation (List Literal)) : Evaluation Literal :=
  match e.result with
  | none => ⟨fallback, e.findings⟩
  | some values => (result values).after e.findings

/-- What an evaluation has to do with the verdict on the script. From a hidden place it may go
on, with a value or towards further findings. -/
inductive Follows (verdict : Except Stop α) (hidden : Path → Prop) (path : Path) :
    Evaluation α → Prop
  | value {v : α} (hv : verdict = .ok v) : Follows verdict hidden path (.done v)
  | problem {stop : Stop} (hstop : verdict = .error stop) (hopen : ¬ hidden stop.place) :
      Follows verdict hidden path ⟨none, [stop.report path]⟩
  | masked {stop : Stop} {result : Option α} {more : List Finding}
      (hstop : verdict = .error stop) (hhidden : hidden stop.place)
      (hmore : result = none → more ≠ []) :
      Follows verdict hidden path ⟨result, stop.report path :: more⟩

section Follows

variable {α β : Type} {verdict : Except Stop α} {hidden other : Path → Prop} {path : Path}
  {e : Evaluation α}

theorem Follows.congr (he : e.Follows verdict hidden path) (hsame : ∀ p, other p ↔ hidden p) :
    e.Follows verdict other path := by
  cases he with
  | value hv => exact .value hv
  | problem hstop hopen => exact .problem hstop (mt (hsame _).mp hopen)
  | masked hstop hhidden hmore => exact .masked hstop ((hsame _).mpr hhidden) hmore

theorem follows_here (hroot : ¬ hidden []) (path : Path) (f : Finding) :
    (⟨none, [f.under path]⟩ : Evaluation α).Follows (.error ⟨[], f⟩) hidden path := by
  rw [← Stop.report_here]
  exact .problem rfl hroot

theorem follows_found (hroot : ¬ hidden []) (path : Path) (problem : Problem) :
    (found path problem : Evaluation α).Follows (.error ⟨[], [], problem⟩) hidden path := by
  have hfollows := follows_here (α := α) hroot path ⟨[], problem⟩
  rwa [Finding.under, List.append_nil] at hfollows

/-- A missing value is always reported. -/
theorem Follows.findings_ne_nil (he : e.Follows verdict hidden path) (hnone : e.result = none) :
    e.findings ≠ [] := by
  cases he with
  | value hv => cases hnone
  | problem hstop hopen => exact List.cons_ne_nil _ _
  | masked hstop hhidden hmore => exact List.cons_ne_nil _ _

theorem Follows.eq_done {v : α} (he : e.Follows verdict hidden path) (hv : verdict = .ok v) :
    e = .done v := by
  cases he with
  | value hw => rw [Except.ok.inj (hv.symm.trans hw)]
  | problem hstop hopen => cases hv.symm.trans hstop
  | masked hstop hhidden hmore => cases hv.symm.trans hstop

theorem Follows.exists_findings {stop : Stop} (he : e.Follows verdict hidden path)
    (hstop : verdict = .error stop) : ∃ more, e.findings = stop.report path :: more := by
  cases he with
  | value hv => cases hstop.symm.trans hv
  | problem hfirst hopen =>
      obtain rfl := Except.error.inj (hstop.symm.trans hfirst)
      exact ⟨[], rfl⟩
  | @masked first result more hfirst hhidden hmore =>
      obtain rfl := Except.error.inj (hstop.symm.trans hfirst)
      exact ⟨more, rfl⟩

/-- Once a hidden problem is reported, nothing that follows can take it back. -/
theorem Follows.masked_after {stop : Stop} {more : List Finding} {verdict' : Except Stop α}
    (he : e.Follows verdict hidden path) (hstop : verdict' = .error stop)
    (hhidden : hidden stop.place) :
    (e.after (stop.report path :: more)).Follows verdict' hidden path := by
  apply Follows.masked hstop hhidden
  intro hnone hmore
  exact he.findings_ne_nil hnone (List.append_eq_nil_iff.mp hmore).2

theorem Follows.map (he : e.Follows verdict hidden path) (f : α → β) :
    (⟨e.result.map f, e.findings⟩ : Evaluation β).Follows (verdict.map f) hidden path := by
  cases he with
  | value hv => exact .value (by rw [hv]; rfl)
  | problem hstop hopen => exact .problem (by rw [hstop]; rfl) hopen
  | masked hstop hhidden hmore =>
      exact .masked (by rw [hstop]; rfl) hhidden (fun hnone => hmore (by simpa using hnone))

end Follows

end Evaluation

namespace Node

open Evaluation (Follows found)

theorem evaluate_sum (path : Path) (operands : List Node) :
    (operation .sum operands).evaluate path =
      (operandsFrom path 0 operands).settled (some (.number .zero)) (sumFrom path .zero 0) := by
  rw [evaluate]
  rfl

theorem evaluate_equal (path : Path) (operands : List Node) :
    (operation .equal operands).evaluate path =
      (operandsFrom path 0 operands).settled none (allEqual path) := by
  rw [evaluate]
  rfl

/-! The operands of an operation, from the evaluation of each of them. -/

section Operands

theorem of_drop_eq_cons {α : Type} {all rest : List α} {first : α} {i : Nat}
    (hdrop : all.drop i = first :: rest) : all[i]? = some first ∧ all.drop (i + 1) = rest := by
  constructor
  · rw [← List.head?_drop, hdrop]
    rfl
  · rw [← List.tail_drop, hdrop]
    rfl

variable {operands : List Node} {path : Path}

/-- The first problem is that of the first operand, or else what its value leads to. -/
theorem follows_operand {n : Node} {i : Nat} {next : Literal → Evaluation α}
    {nextVerdict : Literal → Except Stop α} (hn : operands[i]? = some n)
    (hfirst : (n.evaluate (path ++ [.child i])).Follows n.verdict n.BelowSum (path ++ [.child i]))
    (hnext : ∀ v, (next v).Follows (nextVerdict v) (BelowSumAmong operands) path) :
    ((n.evaluate (path ++ [.child i])).andThen next).Follows
      ((n.verdict.mapError (Stop.below (.child i))).bind nextVerdict)
      (BelowSumAmong operands) path := by
  generalize n.evaluate (path ++ [.child i]) = e at hfirst
  cases hfirst with
  | value hv =>
      rw [hv]
      exact hnext _
  | problem hstop hopen =>
      rw [hstop, ← Stop.report_below]
      exact .problem rfl (mt (belowSumAmong_child hn _).mp hopen)
  | @masked stop result more hstop hhidden hmore =>
      rw [hstop, ← Stop.report_below]
      have hbelow := (belowSumAmong_child hn _).mpr hhidden
      cases result with
      | none => exact .masked rfl hbelow (fun _ => hmore rfl)
      | some v => exact (hnext v).masked_after rfl hbelow

theorem follows_operandsFrom
    (hall : ∀ n ∈ operands, ∀ path, (n.evaluate path).Follows n.verdict n.BelowSum path)
    {i : Nat} {rest : List Node} (hrest : operands.drop i = rest) :
    (operandsFrom path i rest).Follows (verdicts i rest) (BelowSumAmong operands) path := by
  induction rest generalizing i with
  | nil => exact .value rfl
  | cons n rest ih =>
      obtain ⟨hn, hrest⟩ := of_drop_eq_cons hrest
      have hfirst := hall n (List.mem_of_getElem? hn) (path ++ [.child i])
      rw [operandsFrom_cons, verdicts_cons]
      exact follows_operand hn hfirst fun v => (ih hrest).map (v :: ·)

theorem follows_ruled {identity : Bool} {i : Nat} {later : Evaluation Literal}
    {laterVerdict : Except Stop Literal}
    (hlater : later.Follows laterVerdict (BelowSumAmong operands) path) (v : Literal) :
    (ruled path identity i later v).Follows (ruling identity i laterVerdict v)
      (BelowSumAmong operands) path := by
  cases v with
  | number x =>
      exact Evaluation.follows_here (not_belowSumAmong_nil operands) path
        ⟨[.child i], .mismatch .boolean .number⟩
  | boolean b =>
      rw [ruled, ruling]
      split
      next => exact hlater
      next => exact .value rfl

theorem follows_decideFrom
    (hall : ∀ n ∈ operands, ∀ path, (n.evaluate path).Follows n.verdict n.BelowSum path)
    {identity : Bool} {i : Nat} {rest : List Node} (hrest : operands.drop i = rest) :
    (decideFrom path identity i rest).Follows (decision identity i rest)
      (BelowSumAmong operands) path := by
  induction rest generalizing i with
  | nil => exact .value rfl
  | cons n rest ih =>
      obtain ⟨hn, hrest⟩ := of_drop_eq_cons hrest
      have hfirst := hall n (List.mem_of_getElem? hn) (path ++ [.child i])
      rw [decideFrom_cons, decision_cons]
      exact follows_operand hn hfirst (follows_ruled (ih hrest))

theorem follows_of_operands (op : Operation) (fallback : Option Literal)
    {settle : List Literal → Except Stop Literal} {result : List Literal → Evaluation Literal}
    (hall : ∀ n ∈ operands, ∀ path, (n.evaluate path).Follows n.verdict n.BelowSum path)
    (hsettle : ∀ values,
      (result values).Follows (settle values) (operation op operands).BelowSum path)
    (hfallback : fallback = none ↔ op ≠ .sum) :
    ((operandsFrom path 0 operands).settled fallback result).Follows
      ((verdicts 0 operands).bind settle) (operation op operands).BelowSum path := by
  have hoperands : (operandsFrom path 0 operands).Follows (verdicts 0 operands)
      (BelowSumAmong operands) path := follows_operandsFrom hall List.drop_zero
  generalize operandsFrom path 0 operands = e at hoperands
  cases hoperands with
  | value hv =>
      rw [hv]
      exact hsettle _
  | @problem stop hstop hopen =>
      rw [hstop]
      by_cases hsum : op = .sum
      · have hsome : fallback ≠ none := fun hnone => hfallback.mp hnone hsum
        exact .masked rfl (belowSum_operation.mpr (.inl ⟨hsum, place_ne_nil_of_verdicts hstop⟩))
          (fun hnone => absurd hnone hsome)
      · obtain rfl := hfallback.mpr hsum
        refine .problem rfl fun hbelow => ?_
        rcases belowSum_operation.mp hbelow with ⟨hop, -⟩ | hamong
        · exact hsum hop
        · exact hopen hamong
  | @masked stop values more hstop hhidden hmore =>
      rw [hstop]
      have hbelow : (operation op operands).BelowSum stop.place :=
        belowSum_operation.mpr (.inr hhidden)
      cases values with
      | none => exact .masked rfl hbelow (fun _ => hmore rfl)
      | some values => exact (hsettle values).masked_after rfl hbelow

end Operands

theorem follows_sumFrom {hidden : Path → Prop} (hroot : ¬ hidden []) (path : Path)
    (values : List Literal) :
    (sumFrom path .zero 0 values).Follows (sumVerdict values) hidden path := by
  rw [sumFrom_eq, sumVerdict, mismatchFrom?_under path]
  cases mismatchFrom? [] .number 0 values with
  | none => exact .value rfl
  | some f => exact Evaluation.follows_here hroot path f

theorem follows_allEqual {hidden : Path → Prop} (hroot : ¬ hidden []) (path : Path)
    (values : List Literal) :
    (allEqual path values).Follows (equalityVerdict values) hidden path := by
  cases values with
  | nil => exact .value rfl
  | cons first others =>
      rw [allEqual, equalityVerdict, mismatchFrom?_under path]
      cases mismatchFrom? [] first.type 1 others with
      | none => exact .value rfl
      | some f => exact Evaluation.follows_here hroot path f

theorem follows_evaluate (n : Node) (path : Path) :
    (n.evaluate path).Follows n.verdict n.BelowSum path := by
  induction n generalizing path with
  | missing expected => exact Evaluation.follows_found (not_belowSum_nil _) path .missing
  | boolean value => exact .value rfl
  | number value => exact .value rfl
  | reference name => exact Evaluation.follows_found (not_belowSum_nil _) path (.unbound name)
  | operation op operands ih =>
      cases op with
      | and =>
          have hsame : ∀ p, (operation .and operands).BelowSum p ↔ BelowSumAmong operands p := by
            intro p
            simp [belowSum_operation]
          exact (follows_decideFrom ih List.drop_zero).congr hsame
      | or =>
          have hsame : ∀ p, (operation .or operands).BelowSum p ↔ BelowSumAmong operands p := by
            intro p
            simp [belowSum_operation]
          exact (follows_decideFrom ih List.drop_zero).congr hsame
      | sum =>
          rw [evaluate_sum, verdict]
          exact follows_of_operands .sum (some (.number .zero)) ih
            (follows_sumFrom (not_belowSum_nil _) path) (by simp)
      | equal =>
          rw [evaluate_equal, verdict]
          exact follows_of_operands .equal none ih
            (follows_allEqual (not_belowSum_nil _) path) (by simp)
  | function name parameters body _ =>
      exact Evaluation.follows_found (not_belowSum_nil _) path (.functionValue name)
  | unrecognized tag raw =>
      exact Evaluation.follows_found (not_belowSum_nil _) path (.unknown tag)

end Node

/-- An evaluation that had earlier findings before it has no value exactly if it adds a finding, and
it adds one at most. -/
structure Evaluation.StopsAtFirst (earlier : List Finding) (e : Evaluation α) : Prop where
  none_iff : e.result = none ↔ e.findings ≠ earlier
  length_le : e.findings.length ≤ earlier.length + 1

namespace Evaluation

theorem Follows.stopsAtFirst_iff {verdict : Except Stop α} {hidden : Path → Prop} {path : Path}
    {e : Evaluation α} (he : e.Follows verdict hidden path) (earlier : List Finding) :
    (e.after earlier).StopsAtFirst earlier ↔
      ∀ stop, verdict = .error stop → ¬ hidden stop.place := by
  cases he with
  | @value v hv =>
      refine iff_of_true ⟨?_, ?_⟩ ?_
      · simp [after, done]
      · simp [after, done]
      · intro stop hstop
        rw [hv] at hstop
        cases hstop
  | @problem first hfirst hopen =>
      refine iff_of_true ⟨?_, ?_⟩ ?_
      · simp [after]
      · simp [after]
      · intro stop hstop
        obtain rfl : first = stop := Except.error.inj (hfirst.symm.trans hstop)
        exact hopen
  | @masked first result more hfirst hhidden hmore =>
      refine iff_of_false ?_ (fun hall => hall first hfirst hhidden)
      intro hstops
      -- either the value or a further finding is one too many
      cases result with
      | some v =>
          have hnone := hstops.none_iff.mpr (by simp [after])
          cases hnone
      | none =>
          have hlength := hstops.length_le
          rw [after, List.length_append, List.length_cons] at hlength
          have hpos := List.length_pos_iff.mpr (hmore rfl)
          omega

end Evaluation

namespace Node

/-- Evaluation gives the value of the verdict and reports nothing, or reports the problem of the
verdict first; a missing value is always reported. It stops at the first problem, without a value,
exactly if no sum stands above the place where that problem is met. -/
theorem evaluate_stopsAtFirst_iff (n : Node) (path : Path) (earlier : List Finding) :
    let e := (n.evaluate path).after earlier
    (∀ v, n.verdict = .ok v → e = ⟨some v, earlier⟩) ∧
    (∀ stop, n.verdict = .error stop →
      ∃ more, e.findings = earlier ++ stop.report path :: more) ∧
    (e.result = none → e.findings ≠ earlier) ∧
    (e.StopsAtFirst earlier ↔ ∀ stop, n.verdict = .error stop → ¬ n.BelowSum stop.place) := by
  intro e
  have hfollows := follows_evaluate n path
  refine ⟨fun v hv => ?_, fun stop hstop => ?_, fun hnone => ?_, hfollows.stopsAtFirst_iff earlier⟩
  · rw [show e = (n.evaluate path).after earlier from rfl, hfollows.eq_done hv]
    simp [Evaluation.after, Evaluation.done]
  · obtain ⟨more, hmore⟩ := hfollows.exists_findings hstop
    exact ⟨more, congrArg (earlier ++ ·) hmore⟩
  · have hne := hfollows.findings_ne_nil hnone
    simpa [e, Evaluation.after] using hne

/-- The sum has a value without its operand, and the comparison finds fault with that value. -/
def lostOperand : Node := operation .equal [operation .sum [reference "x"], boolean true]

theorem evaluate_stopsAtFirst_iff_lostOperand :
    lostOperand.verdict = .error ⟨[.child 0, .child 0], [], .unbound "x"⟩ ∧
      (lostOperand.evaluate []).findings =
        [⟨[.child 0, .child 0], .unbound "x"⟩, ⟨[.child 1], .mismatch .number .boolean⟩] ∧
      ¬ ((lostOperand.evaluate []).after []).StopsAtFirst [] := by
  have hverdict : lostOperand.verdict = .error ⟨[.child 0, .child 0], [], .unbound "x"⟩ := rfl
  have hbelow : lostOperand.BelowSum [.child 0, .child 0] :=
    ⟨[.child 0], [.child 0], operation .sum [reference "x"], rfl, by decide, rfl, _, rfl⟩
  refine ⟨hverdict, rfl, fun hstops => ?_⟩
  have hiff := (lostOperand.evaluate_stopsAtFirst_iff [] []).2.2.2
  exact hiff.mp hstops _ hverdict hbelow

end Node

end ScriptTree
