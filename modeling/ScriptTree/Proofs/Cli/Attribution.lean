import ScriptTree.Proofs.Cli.Results
import ScriptTree.Proofs.Pipeline.Schedule

/-!
Every file has its own result. The scripts that could be read are compiled in a batch, whose
records go back to the files through a table of places; however the batch is scheduled, a
file comes to what it comes to alone. The count of failures is that of the results with an
error or with diagnostics, since no error is without a text.
-/

namespace ScriptTree

/-! The texts of errors. -/

theorem ne_empty_of_append {front back : String} (hfront : front ≠ "") : front ++ back ≠ "" := by
  intro hempty
  have hchars := congrArg String.toList hempty
  rw [String.toList_append, String.toList_empty, List.append_eq_nil_iff] at hchars
  exact hfront (String.toList_eq_nil_iff.mp hchars.1)

theorem PipelineError.message_ne_empty (e : PipelineError) : e.message ≠ "" := by
  cases e with
  | interpret cause => exact ne_empty_of_append (by decide)
  | noInterpretation => decide
  | compile cause =>
      cases cause with
      | unknownNode tag => exact ne_empty_of_append (by decide)
      | unknownOperator tag => exact ne_empty_of_append (by decide)
  | invalid fault => exact ne_empty_of_append (ne_empty_of_append (by decide))
  | minify fault => exact ne_empty_of_append (by decide)
  | cancelled => decide

namespace Cli

theorem LoadError.message_ne_empty (e : LoadError) : e.message ≠ "" := by
  cases e with
  | unreadable name cause =>
      exact ne_empty_of_append (ne_empty_of_append (ne_empty_of_append (by decide)))
  | source cause =>
      cases cause with
      | decode e =>
          exact ne_empty_of_append (ne_empty_of_append (ne_empty_of_append (by decide)))
      | yaml e => exact ne_empty_of_append (by decide)
      | inexpressible reason => exact ne_empty_of_append (by decide)

/-! Results as records with an error and diagnostics, either of which may be empty. -/

namespace FileResult

def error (r : FileResult) : String :=
  match r.outcome with
  | .failed message => message
  | _ => ""

def diagnostics (r : FileResult) : List Diagnostic :=
  match r.outcome with
  | .rejected list => list
  | _ => []

/-- A result that tells of a failure has something to tell. -/
def Telling (r : FileResult) : Prop :=
  r.outcome.isFailure = true ↔ r.error ≠ "" ∨ r.diagnostics ≠ []

end FileResult

theorem FileOutcome.telling_ofResult (file : String) (trees : Bool)
    (result : Except PipelineError Output) : FileResult.Telling ⟨file, .ofResult trees result⟩ := by
  cases result with
  | error e => simp [FileResult.Telling, ofResult, isFailure, FileResult.error, e.message_ne_empty]
  | ok o =>
      rw [ofResult]
      split
      next hdiagnostics =>
        have hne : o.diagnostics ≠ [] := by simpa using hdiagnostics
        simp [FileResult.Telling, isFailure, FileResult.diagnostics, hne]
      next =>
        cases trees with
        | false => simp [FileResult.Telling, isFailure, FileResult.error, FileResult.diagnostics]
        | true =>
            cases o.tree <;>
              simp [FileResult.Telling, isFailure, FileResult.error, FileResult.diagnostics]

namespace Session

/-! From the records of a batch back to the files. -/

/-- The places of the files that could be read, counted from one on. -/
def placesFrom : Nat → List (String × Except LoadError Node) → List Nat
  | _, [] => []
  | i, (_, .ok _) :: rest => i :: placesFrom (i + 1) rest
  | i, (_, .error _) :: rest => placesFrom (i + 1) rest

/-- The result of a file before the batch: that of a file that could be read is empty. -/
def unfilled : String × Except LoadError Node → FileResult
  | (name, .error e) => ⟨name, .failed e.message⟩
  | (name, .ok _) => ⟨name, .code []⟩

/-- What the record of a script says. -/
def ofSlot (trees : Bool) (slot : Pipeline.Slot) : FileOutcome :=
  match slot.error with
  | some e => .failed e.message
  | none => .ofResult trees (.ok (slot.output.getD {}))

/-- Fills the results at the places of a table with what the records say. -/
def scatter (trees : Bool) (loaded : List (String × Except LoadError Node))
    (slots : List Pipeline.Slot) : List FileResult :=
  ((placesFrom 0 loaded).zip slots).foldl
    (fun results entry =>
      results.modify entry.1 fun r => { r with outcome := ofSlot trees entry.2 })
    (loaded.map unfilled)

theorem ofSlot_of (trees : Bool) (name : String) (result : Except PipelineError Output) :
    ofSlot trees (.of name result) = .ofResult trees result := by
  cases result <;> rfl

section Scatter

variable (s : Session) (p : Pipeline)

/-- The places of a table point behind the results that are filled already. -/
theorem foldl_scatter (loaded : List (String × Except LoadError Node))
    (filled : List FileResult) :
    ((placesFrom filled.length loaded).zip
        ((readable loaded).map fun i => Pipeline.Slot.of i.1 (p.run false i.2).result)).foldl
      (fun results entry =>
        results.modify entry.1 fun r => { r with outcome := ofSlot s.emitsTrees entry.2 })
      (filled ++ loaded.map unfilled) = filled ++ loaded.map (s.resultOf p) := by
  induction loaded generalizing filled with
  | nil => rfl
  | cons file rest ih =>
      obtain ⟨name, script⟩ := file
      have hnext := ih (filled ++ [s.resultOf p (name, script)])
      rw [List.length_append, List.length_singleton] at hnext
      cases script with
      | error e => simpa [placesFrom, readable, unfilled, resultOf, outcomeOf] using hnext
      | ok script =>
          have hfill : (filled ++ unfilled (name, .ok script) :: rest.map unfilled).modify
              filled.length (fun r =>
                { r with outcome := ofSlot s.emitsTrees (.of name (p.run false script).result) }) =
              filled ++ [s.resultOf p (name, .ok script)] ++ rest.map unfilled := by
            rw [ofSlot_of, List.modify_eq_take_drop, List.take_left, List.drop_left]
            simp [unfilled, resultOf, outcomeOf]
          simp only [placesFrom, readable, List.map_cons, List.zip_cons_cons, List.foldl_cons]
          rw [hfill, hnext]
          simp

theorem scatter_eq_map (loaded : List (String × Except LoadError Node)) :
    scatter s.emitsTrees loaded
        ((readable loaded).map fun i => Pipeline.Slot.of i.1 (p.run false i.2).result) =
      loaded.map (s.resultOf p) :=
  s.foldl_scatter p loaded []

end Scatter

section Alone

variable {s : Session} {p : Pipeline} {files : List String}

theorem shipped_of_pipeline (hp : s.settings.pipeline = .ok p) : p.Shipped := by
  rw [Settings.pipeline] at hp
  cases hids : s.settings.identifiers with
  | error e =>
      rw [hids] at hp
      cases hp
  | ok ids =>
      rw [hids] at hp
      cases hp
      cases s.settings.evaluate with
      | true => exact .inr rfl
      | false => exact .inl rfl

theorem load_eq_map (hfiles : inputName ∉ files) (input : List UInt8) :
    s.load input files = files.map fun file => (file, s.loadFile input file) := by
  induction files with
  | nil => rfl
  | cons file rest ih =>
      rw [List.mem_cons, not_or] at hfiles
      rw [load, if_neg (Ne.symm hfiles.1), ih hfiles.2, List.map_cons]

theorem result_compileFiles_eq_map (hlive : s.host.cancelled = false) (hfiles : inputName ∉ files) :
    (s.compileFiles p files).result =
      files.map fun file => s.resultOf p (file, s.loadFile s.host.input file) := by
  rw [compileFiles, hlive, s.place_runAll, load_eq_map hfiles, List.map_map]
  rfl

theorem telling_resultOf (file : String × Except LoadError Node) :
    (s.resultOf p file).Telling := by
  obtain ⟨name, script⟩ := file
  cases script with
  | error e =>
      simp [resultOf, outcomeOf, FileResult.Telling, FileOutcome.isFailure, FileResult.error,
        e.message_ne_empty]
  | ok script => exact FileOutcome.telling_ofResult name _ _

theorem failures_eq_countP {results : List FileResult} (htelling : ∀ r ∈ results, r.Telling) :
    failures results = results.countP fun r => r.error ≠ "" ∨ r.diagnostics ≠ [] := by
  apply List.countP_congr
  intro r hr
  exact (htelling r hr).trans decide_eq_true_iff.symm

/-- However the batch of the files that could be read is scheduled, its records go back to the
files they are of. There is a result for each file, under its name, and it is the result that
compiling the file alone gives; the count of failures is that of the results with an error or
with diagnostics. -/
theorem compileFiles_each_alone (hlive : s.host.cancelled = false)
    (hp : s.settings.pipeline = .ok p) (hfiles : inputName ∉ files) :
    (∀ (limit : Nat) (schedule : List Pipeline.Action) (b : Pipeline.Batch),
      (Pipeline.Batch.start (readable (s.load s.host.input files))).run? p limit schedule = some b →
      b.dispatcher = .returned false →
      scatter s.emitsTrees (s.load s.host.input files) b.results =
        (s.compileFiles p files).result) ∧
    (s.compileFiles p files).result.length = files.length ∧
    (∀ (i : Nat) (file : String), files[i]? = some file →
      ∃ r, (s.compileFiles p files).result[i]? = some r ∧ r.file = file ∧
        (s.compileFiles p [file]).result = [r]) ∧
    failures (s.compileFiles p files).result =
      (s.compileFiles p files).result.countP fun r => r.error ≠ "" ∨ r.diagnostics ≠ [] := by
  have hresults := result_compileFiles_eq_map (p := p) hlive hfiles
  refine ⟨fun limit schedule b hrun hover => ?_, ?_, fun i file hfile => ?_, ?_⟩
  · have hsound := Pipeline.Batch.sound_of_run? (shipped_of_pipeline hp) hrun
    rw [hsound.results_of_uninterrupted hover, s.scatter_eq_map, compileFiles, hlive,
      s.place_runAll]
  · rw [hresults, List.length_map]
  · have halone : inputName ∉ [file] := fun hmem =>
      hfiles (List.mem_singleton.mp hmem ▸ List.mem_of_getElem? hfile)
    refine ⟨s.resultOf p (file, s.loadFile s.host.input file), ?_, rfl,
      result_compileFiles_eq_map hlive halone⟩
    rw [hresults, List.getElem?_map, hfile]
    rfl
  · apply failures_eq_countP
    rw [hresults]
    exact List.forall_mem_map.mpr fun file _ => telling_resultOf _

/-! Two files that cannot be read, one of them twice, around one that can. -/

def partlyReadable : Session where
  host := { disk := ⟨"/", [("/", .directory), ("/cut.json", .file "\x7b"),
    ("/true.json", .file "\x7b\"_type\":\"LiteralBoolean\",\"value\":true\x7d")]⟩ }
  settings := .standard

theorem compileFiles_each_alone_partlyReadable :
    partlyReadable.host.cancelled = false ∧ partlyReadable.settings.pipeline = .ok plainPipeline ∧
      inputName ∉ ["gone.json", "cut.json", "true.json", "gone.json"] ∧
      ∃ r, (partlyReadable.compileFiles plainPipeline
          ["gone.json", "cut.json", "true.json", "gone.json"]).result[2]? = some r ∧
        r.file = "true.json" ∧
        (partlyReadable.compileFiles plainPipeline ["true.json"]).result = [r] := by
  have hfiles : inputName ∉ ["gone.json", "cut.json", "true.json", "gone.json"] := by decide
  obtain ⟨-, -, halone, -⟩ :=
    compileFiles_each_alone (s := partlyReadable) (p := plainPipeline) rfl rfl hfiles
  exact ⟨rfl, rfl, hfiles, halone 2 "true.json" rfl⟩

end Alone

end Session

end Cli

end ScriptTree
