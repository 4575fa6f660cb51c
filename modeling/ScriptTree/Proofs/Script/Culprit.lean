import ScriptTree.Pipeline
import ScriptTree.Proofs.Script.Verdict
import ScriptTree.Proofs.Text.Quoted

/-!
The places of findings. Whatever evaluation reports, the path leads from the root through operands
to a place of the script, and what stands there is what the message says. A message tells which
problem it is about, with the name or the tag in it.
-/

namespace ScriptTree

/-! Messages. -/

namespace Problem

/-- How the message of each kind of problem begins. -/
def opening : Problem → List Char
  | missing => ['m', 'i', 's']
  | unbound _ => ['u', 'n', 'b']
  | functionValue _ => ['f', 'u', 'n']
  | unknown _ => ['u', 'n', 'k']
  | mismatch _ _ => ['e', 'x', 'p']

theorem take_append (start : String) (n : Nat) (rest : String) (hn : n ≤ start.toList.length) :
    (start ++ rest).toList.take n = start.toList.take n := by
  rw [String.toList_append, List.take_append_of_le_length hn]

theorem message_unbound (name : ByteString) :
    (unbound name).message = "unbound reference " ++ name.quote := rfl

theorem message_functionValue (name : ByteString) :
    (functionValue name).message = "function " ++ (name.quote ++ " cannot be used as a value") :=
  String.append_assoc

theorem message_unknown (tag : ByteString) :
    (unknown tag).message = "unknown node type " ++ tag.quote := rfl

theorem message_mismatch (expected got : ValueType) :
    (mismatch expected got).message = "expected " ++ (expected.name ++ (", got " ++ got.name)) := by
  rw [← String.append_assoc, ← String.append_assoc]
  rfl

theorem take_message (p : Problem) : p.message.toList.take 3 = p.opening := by
  cases p with
  | missing => rfl
  | unbound name =>
      rw [message_unbound]
      exact take_append "unbound reference " 3 _ (by decide)
  | functionValue name =>
      rw [message_functionValue]
      exact take_append "function " 3 _ (by decide)
  | unknown tag =>
      rw [message_unknown]
      exact take_append "unknown node type " 3 _ (by decide)
  | mismatch expected got =>
      rw [message_mismatch]
      exact take_append "expected " 3 _ (by decide)

theorem message_injective : Function.Injective message := by
  intro p q hmessage
  have hopening : p.opening = q.opening := by rw [← take_message, hmessage, take_message]
  cases p with
  | missing =>
      cases q with
      | missing => rfl
      | _ => exact absurd hopening (by simp [opening])
  | unbound name =>
      cases q with
      | unbound other =>
          rw [message_unbound, message_unbound, String.append_right_inj] at hmessage
          rw [ByteString.quote_injective hmessage]
      | _ => exact absurd hopening (by simp [opening])
  | functionValue name =>
      cases q with
      | functionValue other =>
          rw [message_functionValue, message_functionValue, String.append_right_inj,
            String.append_left_inj] at hmessage
          rw [ByteString.quote_injective hmessage]
      | _ => exact absurd hopening (by simp [opening])
  | unknown tag =>
      cases q with
      | unknown other =>
          rw [message_unknown, message_unknown, String.append_right_inj] at hmessage
          rw [ByteString.quote_injective hmessage]
      | _ => exact absurd hopening (by simp [opening])
  | mismatch expected got =>
      cases q with
      | mismatch other other' =>
          cases expected <;> cases got <;> cases other <;> cases other' <;>
            first | rfl | exact absurd hmessage (by decide)
      | _ => exact absurd hopening (by simp [opening])

end Problem

/-! Places of operands. -/

/-- The path through operands with the given indices. -/
def Path.ofIndices (indices : List Nat) : Path := indices.map .child

/-- The type that an operation at the path asks the values of its operands to have. An equality asks
for the type of its first operand. -/
def Operation.Asks (path : Path) (operands : List Node) : Operation → ValueType → Prop
  | and, expected | or, expected => expected = .boolean
  | sum, expected => expected = .number
  | equal, expected => ∃ first v, operands[0]? = some first ∧
      (first.evaluate (path ++ [.child 0])).result = some v ∧ v.type = expected

namespace Node

/-- What a problem says of the place that the indices lead to, in a script that stands at the
path. -/
def Fits (n : Node) (path : Path) (indices : List Nat) : Problem → Prop
  | .missing => ∃ expected, n.at? (.ofIndices indices) = some (missing expected)
  | .unbound name => n.at? (.ofIndices indices) = some (reference name)
  | .functionValue name =>
      ∃ parameters body, n.at? (.ofIndices indices) = some (function name parameters body)
  | .unknown tag => ∃ raw, n.at? (.ofIndices indices) = some (unrecognized tag raw)
  | .mismatch expected got => ∃ above i op operands operand v, indices = above ++ [i] ∧
      n.at? (.ofIndices above) = some (operation op operands) ∧ operands[i]? = some operand ∧
      (operand.evaluate (path ++ .ofIndices indices)).result = some v ∧
      v.type = got ∧ op.Asks (path ++ .ofIndices above) operands expected ∧ got ≠ expected

theorem Fits.exists_at {n : Node} {path : Path} {indices : List Nat} {problem : Problem}
    (hfits : n.Fits path indices problem) : ∃ m, n.at? (.ofIndices indices) = some m := by
  cases problem with
  | missing =>
      obtain ⟨expected, hat⟩ := hfits
      exact ⟨_, hat⟩
  | unbound name => exact ⟨_, hfits⟩
  | functionValue name =>
      obtain ⟨parameters, body, hat⟩ := hfits
      exact ⟨_, hat⟩
  | unknown tag =>
      obtain ⟨raw, hat⟩ := hfits
      exact ⟨_, hat⟩
  | mismatch expected got =>
      obtain ⟨above, i, op, operands, operand, v, rfl, hat, hoperand, -⟩ := hfits
      refine ⟨operand, ?_⟩
      rw [Path.ofIndices, List.map_append, at?_append, ← Path.ofIndices, hat]
      simp [at?, child?, hoperand]

section Operands

variable {operands : List Node} {path : Path}

theorem at?_operand {op : Operation} {i : Nat} {m : Node} (hm : operands[i]? = some m)
    (indices : List Nat) :
    (operation op operands).at? (.ofIndices (i :: indices)) = m.at? (.ofIndices indices) := by
  rw [Path.ofIndices, List.map_cons, at?, child?, hm]
  rfl

theorem Fits.operand {op : Operation} {i : Nat} {m : Node} {indices : List Nat} {problem : Problem}
    (hfits : m.Fits (path ++ [.child i]) indices problem) (hm : operands[i]? = some m) :
    (operation op operands).Fits path (i :: indices) problem := by
  cases problem with
  | missing =>
      obtain ⟨expected, hat⟩ := hfits
      exact ⟨expected, (at?_operand hm indices).trans hat⟩
  | unbound name => exact (at?_operand hm indices).trans hfits
  | functionValue name =>
      obtain ⟨parameters, body, hat⟩ := hfits
      exact ⟨parameters, body, (at?_operand hm indices).trans hat⟩
  | unknown tag =>
      obtain ⟨raw, hat⟩ := hfits
      exact ⟨raw, (at?_operand hm indices).trans hat⟩
  | mismatch expected got =>
      obtain ⟨above, j, inner, others, other, v, rfl, hat, hother, hv, htype, hasks, hne⟩ := hfits
      rw [List.append_assoc] at hv hasks
      exact ⟨i :: above, j, inner, others, other, v, rfl, (at?_operand hm above).trans hat, hother,
        hv, htype, hasks, hne⟩

theorem fits_mismatch {op : Operation} {i : Nat} {operand : Node} {v : Literal}
    {expected : ValueType} (hoperand : operands[i]? = some operand)
    (hv : (operand.evaluate (path ++ [.child i])).result = some v)
    (hasks : op.Asks path operands expected) (hne : v.type ≠ expected) :
    (operation op operands).Fits path [i] (.mismatch expected v.type) := by
  refine ⟨[], i, op, operands, operand, v, rfl, rfl, hoperand, hv, rfl, ?_, hne⟩
  rwa [Path.ofIndices, List.map_nil, List.append_nil]

/-- A finding is about a place of the script, and fits it. -/
def Locates (n : Node) (path : Path) (f : Finding) : Prop :=
  ∃ indices, f.path = path ++ .ofIndices indices ∧ n.Fits path indices f.problem

theorem Locates.operand {op : Operation} {i : Nat} {m : Node} {f : Finding}
    (hf : m.Locates (path ++ [.child i]) f) (hm : operands[i]? = some m) :
    (operation op operands).Locates path f := by
  obtain ⟨indices, hpath, hfits⟩ := hf
  refine ⟨i :: indices, ?_, hfits.operand hm⟩
  rw [hpath, List.append_assoc]
  rfl

theorem locates_mismatch {op : Operation} {i : Nat} {operand : Node} {v : Literal}
    {expected : ValueType} (hoperand : operands[i]? = some operand)
    (hv : (operand.evaluate (path ++ [.child i])).result = some v)
    (hasks : op.Asks path operands expected) (hne : v.type ≠ expected) :
    (operation op operands).Locates path ⟨path ++ [.child i], .mismatch expected v.type⟩ :=
  ⟨[i], rfl, fits_mismatch hoperand hv hasks hne⟩

theorem locates_of_operand {n : Node} {i : Nat} (op : Operation)
    (hall : ∀ n ∈ operands, ∀ path, ∀ f ∈ (n.evaluate path).findings, n.Locates path f)
    (hn : operands[i]? = some n) :
    ∀ f ∈ (n.evaluate (path ++ [.child i])).findings, (operation op operands).Locates path f :=
  fun f hf => (hall n (List.mem_of_getElem? hn) _ f hf).operand hn

theorem locates_of_decideFrom {op : Operation} (hasks : op.Asks path operands .boolean)
    (hall : ∀ n ∈ operands, ∀ path, ∀ f ∈ (n.evaluate path).findings, n.Locates path f)
    {identity : Bool} {i : Nat} {rest : List Node} (hrest : operands.drop i = rest) :
    ∀ f ∈ (decideFrom path identity i rest).findings, (operation op operands).Locates path f := by
  induction rest generalizing i with
  | nil => intro f hf; cases hf
  | cons n rest ih =>
      obtain ⟨hn, hrest⟩ := of_drop_eq_cons hrest
      rw [decideFrom_cons]
      refine Evaluation.forall_findings_andThen (locates_of_operand op hall hn) fun v hv => ?_
      cases v with
      | number x =>
          have hmismatch := locates_mismatch hn hv hasks (by simp [Literal.type])
          exact List.forall_mem_singleton.mpr hmismatch
      | boolean b =>
          rw [ruled]
          split
          next => exact ih hrest
          next => intro f hf; cases hf

theorem locates_of_operandsFrom (op : Operation)
    (hall : ∀ n ∈ operands, ∀ path, ∀ f ∈ (n.evaluate path).findings, n.Locates path f)
    {i : Nat} {rest : List Node} (hrest : operands.drop i = rest) :
    ∀ f ∈ (operandsFrom path i rest).findings, (operation op operands).Locates path f := by
  induction rest generalizing i with
  | nil => intro f hf; cases hf
  | cons n rest ih =>
      obtain ⟨hn, hrest⟩ := of_drop_eq_cons hrest
      rw [operandsFrom_cons]
      exact Evaluation.forall_findings_andThen (locates_of_operand op hall hn) fun _ _ => ih hrest

/-- The values of the operands are theirs, in their order. -/
theorem result_of_operandsFrom {i : Nat} {rest : List Node} (hrest : operands.drop i = rest)
    {values : List Literal} (hvalues : (operandsFrom path i rest).result = some values)
    {k : Nat} {v : Literal} (hv : values[k]? = some v) :
    ∃ m, operands[i + k]? = some m ∧ (m.evaluate (path ++ [.child (i + k)])).result = some v := by
  induction rest generalizing i values k with
  | nil =>
      obtain rfl : [] = values := Option.some.inj hvalues
      cases hv
  | cons n rest ih =>
      obtain ⟨hn, hrest⟩ := of_drop_eq_cons hrest
      obtain ⟨first, later, hfirst, hlater, rfl⟩ := operandsFrom_cons_result hvalues
      cases k with
      | zero =>
          obtain rfl : first = v := Option.some.inj hv
          exact ⟨n, hn, hfirst⟩
      | succ k =>
          have hindex : i + (k + 1) = i + 1 + k := by omega
          rw [hindex]
          exact ih hrest hlater hv

theorem of_mismatchFrom?_eq_some {expected : ValueType} {i : Nat} {values : List Literal}
    {f : Finding} (hf : mismatchFrom? path expected i values = some f) :
    ∃ k v, values[k]? = some v ∧ v.type ≠ expected ∧
      f = ⟨path ++ [.child (i + k)], .mismatch expected v.type⟩ := by
  induction values generalizing i with
  | nil => cases hf
  | cons first rest ih =>
      rw [mismatchFrom?] at hf
      by_cases htype : first.type = expected
      · rw [if_pos htype] at hf
        obtain ⟨k, v, hv, hne, rfl⟩ := ih hf
        refine ⟨k + 1, v, hv, hne, ?_⟩
        rw [Nat.add_assoc, Nat.add_comm 1 k]
      · rw [if_neg htype] at hf
        exact ⟨0, first, rfl, htype, (Option.some.inj hf).symm⟩

/-- What a mismatch among the values of the operands from index `i` on is about. -/
theorem locates_of_mismatchFrom? {op : Operation} {i : Nat} {expected : ValueType}
    {values : List Literal} {f : Finding} (hasks : op.Asks path operands expected)
    (hvalues : ∀ k v, values[k]? = some v → ∃ m, operands[i + k]? = some m ∧
      (m.evaluate (path ++ [.child (i + k)])).result = some v)
    (hf : mismatchFrom? path expected i values = some f) :
    (operation op operands).Locates path f := by
  obtain ⟨k, v, hv, hne, rfl⟩ := of_mismatchFrom?_eq_some hf
  obtain ⟨m, hm, hresult⟩ := hvalues k v hv
  exact locates_mismatch hm hresult hasks hne

theorem locates_of_sumFrom {values : List Literal}
    (hvalues : (operandsFrom path 0 operands).result = some values) :
    ∀ f ∈ (sumFrom path .zero 0 values).findings, (operation .sum operands).Locates path f := by
  rw [sumFrom_eq]
  cases hmismatch : mismatchFrom? path .number 0 values with
  | none => intro f hf; cases hf
  | some f =>
      exact List.forall_mem_singleton.mpr (locates_of_mismatchFrom? rfl
        (fun k v hv => result_of_operandsFrom List.drop_zero hvalues hv) hmismatch)

theorem locates_of_allEqual {values : List Literal}
    (hvalues : (operandsFrom path 0 operands).result = some values) :
    ∀ f ∈ (allEqual path values).findings, (operation .equal operands).Locates path f := by
  cases values with
  | nil => intro f hf; cases hf
  | cons first others =>
      have hall := fun k v => result_of_operandsFrom (k := k) (v := v) List.drop_zero hvalues
      rw [allEqual]
      cases hmismatch : mismatchFrom? path first.type 1 others with
      | none => intro f hf; cases hf
      | some f =>
          obtain ⟨m, hm, hfirst⟩ := hall 0 first rfl
          have hasks : Operation.equal.Asks path operands first.type := ⟨m, first, hm, hfirst, rfl⟩
          refine List.forall_mem_singleton.mpr (locates_of_mismatchFrom? hasks ?_ hmismatch)
          intro k v hv
          have hlater := hall (k + 1) v hv
          rwa [Nat.zero_add, Nat.add_comm k 1] at hlater

theorem locates_of_operands (op : Operation) (fallback : Option Literal)
    {result : List Literal → Evaluation Literal}
    (hall : ∀ n ∈ operands, ∀ path, ∀ f ∈ (n.evaluate path).findings, n.Locates path f)
    (hresult : ∀ values, (operandsFrom path 0 operands).result = some values →
      ∀ f ∈ (result values).findings, (operation op operands).Locates path f) :
    ∀ f ∈ ((operandsFrom path 0 operands).settled fallback result).findings,
      (operation op operands).Locates path f := by
  have hoperands : ∀ f ∈ (operandsFrom path 0 operands).findings,
      (operation op operands).Locates path f := locates_of_operandsFrom op hall List.drop_zero
  rw [Evaluation.settled]
  cases hvalues : (operandsFrom path 0 operands).result with
  | none => exact hoperands
  | some values => exact List.forall_mem_append.mpr ⟨hoperands, hresult values hvalues⟩

end Operands

theorem locates_of_evaluate (n : Node) (path : Path) :
    ∀ f ∈ (n.evaluate path).findings, n.Locates path f := by
  have hroot : ∀ (n : Node) (path : Path) (problem : Problem), n.Fits path [] problem →
      n.Locates path ⟨path, problem⟩ :=
    fun n path problem hfits => ⟨[], (List.append_nil path).symm, hfits⟩
  induction n generalizing path with
  | missing expected => exact List.forall_mem_singleton.mpr (hroot _ _ _ ⟨expected, rfl⟩)
  | boolean value => intro f hf; cases hf
  | number value => intro f hf; cases hf
  | reference name => exact List.forall_mem_singleton.mpr (hroot _ _ _ rfl)
  | operation op operands ih =>
      cases op with
      | and =>
          have hasks : Operation.and.Asks path operands .boolean := rfl
          exact locates_of_decideFrom hasks ih List.drop_zero
      | or =>
          have hasks : Operation.or.Asks path operands .boolean := rfl
          exact locates_of_decideFrom hasks ih List.drop_zero
      | sum =>
          rw [evaluate_sum]
          exact locates_of_operands .sum _ ih (fun _ => locates_of_sumFrom)
      | equal =>
          rw [evaluate_equal]
          exact locates_of_operands .equal _ ih (fun _ => locates_of_allEqual)
  | function name parameters body _ =>
      exact List.forall_mem_singleton.mpr (hroot _ _ _ ⟨parameters, body, rfl⟩)
  | unrecognized tag raw => exact List.forall_mem_singleton.mpr (hroot _ _ _ ⟨raw, rfl⟩)

theorem findings_of_reduce {n : Node} {findings : List Finding}
    (hreduce : n.reduce = .rejected findings) : findings = (n.evaluate []).findings := by
  rw [reduce] at hreduce
  split at hreduce
  case isTrue => cases hreduce
  case isFalse =>
    simp only at hreduce
    split at hreduce
    case isTrue => exact (Reduction.rejected.inj hreduce).symm
    case isFalse => split at hreduce <;> cases hreduce

end Node

theorem Path.text_ofIndices (indices : List Nat) :
    Path.text (.ofIndices indices) =
      "$" ++ String.join (indices.map fun i => ".children[" ++ Nat.repr i ++ "]") := by
  rw [Path.text, Path.ofIndices, List.map_map]
  rfl

theorem Interpreter.list_of_evaluator {cancelled : Bool} {script : Node} {list : List Diagnostic}
    (hlist : Interpreter.evaluator cancelled script = .ok (some (.diagnostics list))) :
    list = (script.evaluate []).findings.map Diagnostic.ofFinding := by
  cases cancelled with
  | true => cases hlist
  | false =>
      cases hreduce : script.reduce with
      | rejected findings =>
          simp only [evaluator, hreduce, Bool.false_eq_true, if_false, Except.ok.injEq,
            Option.some.injEq, Interpretation.diagnostics.injEq] at hlist
          rw [← hlist, Node.findings_of_reduce hreduce]
      | reduced value => simp [evaluator, hreduce] at hlist
      | unreduced => simp [evaluator, hreduce] at hlist

/-- Every diagnostic of a script leads from the root through operands to a place of the script, and
whatever problem its message is about, the place fits it. -/
theorem Interpreter.diagnostics_fit (cancelled : Bool) (script : Node) (list : List Diagnostic)
    (hlist : Interpreter.evaluator cancelled script = .ok (some (.diagnostics list))) :
    ∀ d ∈ list, ∃ indices : List Nat,
      d.path = "$" ++ String.join (indices.map fun i => ".children[" ++ Nat.repr i ++ "]") ∧
      (∃ m, script.at? (.ofIndices indices) = some m) ∧
      (∃ problem : Problem, problem.message = d.message) ∧
      ∀ problem : Problem, problem.message = d.message → script.Fits [] indices problem := by
  rw [list_of_evaluator hlist, List.forall_mem_map]
  intro f hf
  obtain ⟨indices, hpath, hfits⟩ := script.locates_of_evaluate [] f hf
  rw [List.nil_append] at hpath
  refine ⟨indices, ?_, hfits.exists_at, ⟨f.problem, rfl⟩, fun problem hproblem => ?_⟩
  · rw [Diagnostic.ofFinding, hpath, Path.text_ofIndices]
  · rwa [Problem.message_injective hproblem]

namespace Node

/-- The inner sum loses its operand, and the equality around it finds fault with the value that the
sum has nevertheless. -/
def nestedFault : Node :=
  operation .or [boolean false,
    operation .and [boolean true,
      operation .equal [operation .sum [number .zero, reference "x"], boolean true]]]

def nestedFindings : List Finding := [
  ⟨[.child 1, .child 1, .child 0, .child 1], .unbound "x"⟩,
  ⟨[.child 1, .child 1, .child 1], .mismatch .number .boolean⟩]

end Node

theorem Interpreter.diagnostics_fit_nestedFault :
    Interpreter.evaluator false Node.nestedFault =
        .ok (some (.diagnostics (Node.nestedFindings.map Diagnostic.ofFinding))) ∧
      ∀ d ∈ Node.nestedFindings.map Diagnostic.ofFinding, ∃ indices : List Nat,
        d.path = "$" ++ String.join (indices.map fun i => ".children[" ++ Nat.repr i ++ "]") ∧
        ∀ problem : Problem, problem.message = d.message →
          Node.nestedFault.Fits [] indices problem := by
  have hlist : Interpreter.evaluator false Node.nestedFault =
      .ok (some (.diagnostics (Node.nestedFindings.map Diagnostic.ofFinding))) := rfl
  refine ⟨hlist, fun d hd => ?_⟩
  obtain ⟨indices, hpath, -, -, hfits⟩ :=
    Interpreter.diagnostics_fit false Node.nestedFault _ hlist d hd
  exact ⟨indices, hpath, hfits⟩

end ScriptTree
