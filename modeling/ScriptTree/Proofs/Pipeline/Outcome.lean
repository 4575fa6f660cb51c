import ScriptTree.Pipeline
import ScriptTree.Proofs.Compile.Builder

/-!
What comes out of a pipeline. A script is rejected or compiled, and the diagnostics alone tell
which; but where an interpreter rejects a script and has nothing to say about it, that is kept as
it is and nothing comes out.
-/

namespace ScriptTree

open Js (Builder Expr)

variable {σ : Type}

namespace Output

/-- What is wrong with a script, and nothing else. -/
structure Rejection (o : Output) : Prop where
  diagnostics : o.diagnostics ≠ []
  tree : o.tree = none
  code : o.code = []

/-- A tree with its source text, and nothing else. -/
structure Compilation (o : Output) (e : Expr) : Prop where
  diagnostics : o.diagnostics = []
  tree : o.tree = some e
  code : o.code = e.source

/-- The output for a tree. The empty place is no tree. -/
def ofTree (e : Expr) (code : ByteString) : Output :=
  match e with
  | .absent => { code }
  | e => { code, tree := some e }

theorem ofTree_of_ne {e : Expr} (he : e ≠ .absent) (code : ByteString) :
    ofTree e code = { code, tree := some e } := by
  cases e with
  | absent => exact absurd rfl he
  | _ => rfl

end Output

namespace Pipeline

/-! Pipelines with a builder of one's own. -/

def buildWith (p : Pipeline) (b : Builder σ) (script : Node) (s : σ) :
    Except PipelineError Output × σ :=
  match (script.compileWith b p.identifiers).runFrom s with
  | (.error cause, s) => (.error (.compile cause), s)
  | (.ok e, s) => ((p.finish e.source).map (.ofTree e), s)

def runWith (p : Pipeline) (b : Builder σ) (cancelled : Bool) (script : Node) (s : σ) :
    Except PipelineError Output × σ :=
  match p.interpreter cancelled script with
  | .error cause => (.error (.interpret cause), s)
  | .ok none => (.error .noInterpretation, s)
  | .ok (some (.diagnostics list)) => (.ok { diagnostics := list }, s)
  | .ok (some (.residual other)) => p.buildWith b other s
  | .ok (some .unreduced) => p.buildWith b script s

variable {p : Pipeline} {b : Builder σ}

theorem ne_absent_of_compile {script : Node} {ids : Identifier.Options} {e : Expr}
    (he : script.compile ids = .ok e) : e ≠ .absent := by
  refine Builder.proper_factory.makes_compileWith ids script () e ?_
  rw [Node.runFrom_compileWith_factory, he]

theorem buildWith_factory (p : Pipeline) (script : Node) (s : σ) :
    p.buildWith .factory script s = (p.build script, s) := by
  rw [buildWith, Node.runFrom_compileWith_factory, build]
  cases he : script.compile p.identifiers with
  | error cause => rfl
  | ok e =>
      have hsome : Output.ofTree e = fun code => { code, tree := some e } :=
        funext (Output.ofTree_of_ne (ne_absent_of_compile he))
      change ((p.finish e.source).map (Output.ofTree e), s) =
        (do return { code := ← p.finish e.source, tree := some e }, s)
      rw [hsome]
      cases p.finish e.source <;> rfl

/-- The builder that makes the nodes themselves changes nothing. -/
theorem runWith_factory (p : Pipeline) (cancelled : Bool) (script : Node) (s : σ) :
    p.runWith .factory cancelled script s = ((p.run cancelled script).result, s) := by
  rw [runWith, run]
  cases p.interpreter cancelled script with
  | error cause => rfl
  | ok interpretation =>
      match interpretation with
      | none => rfl
      | some (.diagnostics list) => rfl
      | some (.residual other) => exact p.buildWith_factory other s
      | some .unreduced => exact p.buildWith_factory script s

/-! What comes out. -/

theorem finish_eq (hverify : p.verify = false) (hminify : p.minify = false) (code : ByteString) :
    p.finish code = .ok code := by
  simp only [finish, hverify, hminify]
  rfl

theorem output_of_buildWith (hverify : p.verify = false) (hminify : p.minify = false)
    {script : Node} {s : σ} {output : Output}
    (houtput : (p.buildWith b script s).1 = .ok output) :
    (∃ e, output.Compilation e) ∨ output = {} ∧ ¬ b.Proper := by
  rw [buildWith] at houtput
  cases hbuilt : (script.compileWith b p.identifiers).runFrom s with
  | mk result t =>
      rw [hbuilt] at houtput
      cases result with
      | error cause => cases houtput
      | ok e =>
          simp only [finish_eq hverify hminify, Except.map] at houtput
          obtain rfl := Except.ok.inj houtput
          by_cases he : e = .absent
          · refine .inr ⟨?_, fun hb => ?_⟩
            · rw [he]
              rfl
            · exact hb.makes_compileWith p.identifiers script s e (by rw [hbuilt]) he
          · rw [Output.ofTree_of_ne he]
            exact .inl ⟨e, rfl, rfl, rfl⟩

/-- Whatever a pipeline that neither checks nor shortens has for an interpreter and a builder: an
output is a rejection, with the diagnostics of the interpreter, or a compilation, whose text is that
of its tree; or it is empty, because the interpreter rejected the script with an empty list of
diagnostics or because the builder left a place empty. -/
theorem output_cases (p : Pipeline) (hverify : p.verify = false) (hminify : p.minify = false)
    (b : Builder σ) (cancelled : Bool) (script : Node) (s : σ) {output : Output}
    (houtput : (p.runWith b cancelled script s).1 = .ok output) :
    (output.Rejection ∧
      p.interpreter cancelled script = .ok (some (.diagnostics output.diagnostics))) ∨
    ((∃ e, output.Compilation e) ∧
      ∀ list, p.interpreter cancelled script ≠ .ok (some (.diagnostics list))) ∨
    (output = {} ∧
      (p.interpreter cancelled script = .ok (some (.diagnostics [])) ∨ ¬ b.Proper)) := by
  rw [runWith] at houtput
  cases hinterpreted : p.interpreter cancelled script with
  | error cause =>
      rw [hinterpreted] at houtput
      cases houtput
  | ok interpretation =>
      rw [hinterpreted] at houtput
      have hbuilt {other : Node} (hother : (p.buildWith b other s).1 = .ok output) :=
        output_of_buildWith hverify hminify hother
      match interpretation with
      | none => cases houtput
      | some (.diagnostics []) =>
          obtain rfl := Except.ok.inj houtput
          exact .inr (.inr ⟨rfl, .inl rfl⟩)
      | some (.diagnostics (d :: list)) =>
          obtain rfl := Except.ok.inj houtput
          exact .inl ⟨⟨List.cons_ne_nil d list, rfl, rfl⟩, rfl⟩
      | some (.residual other) =>
          rcases hbuilt houtput with hcompilation | ⟨hempty, hb⟩
          · exact .inr (.inl ⟨hcompilation, nofun⟩)
          · exact .inr (.inr ⟨hempty, .inr hb⟩)
      | some .unreduced =>
          rcases hbuilt houtput with hcompilation | ⟨hempty, hb⟩
          · exact .inr (.inl ⟨hcompilation, nofun⟩)
          · exact .inr (.inr ⟨hempty, .inr hb⟩)

/-- An interpreter that rejects every script without a reason. -/
def speechless : Pipeline := make .standard (some fun _ _ => .ok (some (.diagnostics []))) false false

/-- A rejection without a reason is neither a rejection with diagnostics nor a compilation. -/
theorem run_speechless :
    speechless.verify = false ∧ speechless.minify = false ∧
      (speechless.run false (.boolean true)).result = .ok {} ∧
      ¬ (({} : Output).Rejection ∨ ∃ e, ({} : Output).Compilation e) := by
  refine ⟨rfl, rfl, rfl, ?_⟩
  rintro (hrejection | ⟨e, hcompilation⟩)
  · exact hrejection.diagnostics rfl
  · cases hcompilation.tree

theorem output_cases_sum :
    let p := make .standard none false false
    let script : Node := .operation .sum [.reference "a", .reference "class"]
    ∃ output : Output, (p.runWith .factory false script ()).1 = .ok output ∧
      output.code = Text.toBytes "a + _class" ∧ ∃ e, output.Compilation e := by
  intro p script
  have hcode : ∃ output, (p.runWith .factory false script ()).1 = .ok output ∧
      output.code = Text.toBytes "a + _class" :=
    ⟨_, rfl, by decide +kernel⟩
  obtain ⟨output, houtput, hcode⟩ := hcode
  refine ⟨output, houtput, hcode, ?_⟩
  rcases output_cases p rfl rfl .factory false script () houtput with
    ⟨hrejection, -⟩ | ⟨hcompilation, -⟩ | ⟨hempty, -⟩
  · rw [hrejection.code] at hcode
    cases hcode
  · exact hcompilation
  · rw [hempty] at hcode
    cases hcode

end Pipeline

end ScriptTree
