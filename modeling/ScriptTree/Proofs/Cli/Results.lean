import ScriptTree.Cli.Compile

/-!
The results of files that are compiled together. Files that cannot be read take no part in
the batch, and yet every file has the result that it has on its own.
-/

namespace ScriptTree.Cli.Session

def outcomeOf (s : Session) (p : Pipeline) : Except LoadError Node → FileOutcome
  | .error e => .failed e.message
  | .ok script => .ofResult s.emitsTrees (p.run false script).result

def resultOf (s : Session) (p : Pipeline) (file : String × Except LoadError Node) : FileResult :=
  ⟨file.1, s.outcomeOf p file.2⟩

def filesOf (arguments : List String) : List String :=
  if arguments.isEmpty then [inputName] else arguments

def resultsOf (s : Session) (p : Pipeline) (arguments : List String) : List FileResult :=
  (s.load s.host.input (filesOf arguments)).map (s.resultOf p)

section Batch

variable (s : Session) (p : Pipeline)

theorem runAll_cons (name : String) (script : Node) (rest : List (String × Node)) :
    (p.runAll false ((name, script) :: rest)).result =
      ⟨name, (p.run false script).result⟩ :: (p.runAll false rest).result := rfl

/-- A result of the batch goes to the next file that could be read. -/
theorem place_runAll (loaded : List (String × Except LoadError Node)) :
    place s.emitsTrees loaded (p.runAll false (readable loaded)).result =
      loaded.map (s.resultOf p) := by
  induction loaded with
  | nil => rfl
  | cons file rest ih =>
      obtain ⟨name, script⟩ := file
      cases script with
      | error e =>
          rw [readable, place, ih]
          rfl
      | ok script =>
          rw [readable, runAll_cons, place, ih]
          rfl

theorem result_compileFiles {s : Session} (hlive : s.host.cancelled = false)
    (arguments : List String) :
    (s.compileFiles p (filesOf arguments)).result = s.resultsOf p arguments := by
  rw [compileFiles, hlive]
  exact s.place_runAll p _

theorem map_fst_load (input : List UInt8) (files : List String) :
    (s.load input files).map Prod.fst = files := by
  induction files generalizing input with
  | nil => rfl
  | cons name rest ih => rw [load, List.map_cons, ih]

theorem map_file_resultsOf (arguments : List String) :
    (s.resultsOf p arguments).map FileResult.file = filesOf arguments := by
  rw [resultsOf, List.map_map]
  exact s.map_fst_load s.host.input (filesOf arguments)

theorem filesOf_ne_nil (arguments : List String) : filesOf arguments ≠ [] := by
  rw [filesOf]
  split
  next => exact List.cons_ne_nil _ _
  next hsome => exact fun hnil => hsome (List.isEmpty_iff.mpr hnil)

theorem resultsOf_ne_nil (arguments : List String) : s.resultsOf p arguments ≠ [] := by
  intro hnil
  have hfiles := s.map_file_resultsOf p arguments
  rw [hnil] at hfiles
  exact filesOf_ne_nil arguments hfiles.symm

end Batch

/-- What the standard settings make of scripts. -/
def plainPipeline : Pipeline :=
  .make ⟨some (.before "_"), Settings.standard.dialect.resolve, true, some .standard⟩ none false false

end ScriptTree.Cli.Session
