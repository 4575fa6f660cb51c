import ScriptTree.Proofs.Cli.Results
import ScriptTree.Proofs.Js.Encoding
import ScriptTree.Proofs.Script.Written

/-!
What compiling files writes to standard output. The code or the tree of a file is written
exactly if the file was compiled and its tree has only finite numbers; as JSON, one tree
with another number keeps the results of all files from being written. Neither makes the
command fail.
-/

namespace ScriptTree

/-! Texts that stand in others. -/

namespace Text

def Occurs (text whole : String) : Prop := text.toList <:+: whole.toList

theorem Occurs.refl (text : String) : Occurs text text := List.infix_rfl

theorem Occurs.append_right {text whole : String} (htext : Occurs text whole) (more : String) :
    Occurs text (whole ++ more) := by
  rw [Occurs, String.toList_append]
  exact htext.trans (List.prefix_append _ _).isInfix

theorem Occurs.append_left {text whole : String} (htext : Occurs text whole) (more : String) :
    Occurs text (more ++ whole) := by
  rw [Occurs, String.toList_append]
  exact htext.trans (List.suffix_append _ _).isInfix

theorem Occurs.trans {text part whole : String} (htext : Occurs text part)
    (hpart : Occurs part whole) : Occurs text whole :=
  List.IsInfix.trans htext hpart

theorem Occurs.eq_empty {text : String} (htext : Occurs text "") : text = "" :=
  String.toList_eq_nil_iff.mp (List.infix_nil.mp htext)

theorem occurs_join {part : String} {parts : List String} (hpart : part ∈ parts) :
    Occurs part (String.join parts) := by
  induction parts with
  | nil => cases hpart
  | cons first rest ih =>
      rw [String.join_cons]
      rcases List.mem_cons.mp hpart with rfl | hpart
      · exact (Occurs.refl part).append_right _
      · exact (ih hpart).append_left _

theorem exists_pieces_of_intercalate {items : List α} (hitems : items ≠ []) (write : α → String)
    (separator before after : String) :
    ∃ pieces : List (α × String), pieces.map Prod.fst = items ∧
      before ++ String.intercalate separator (items.map write) ++ after =
        String.join (pieces.map Prod.snd) ∧
      ∀ x ∈ pieces, Occurs (write x.1) x.2 := by
  induction items generalizing before with
  | nil => exact absurd rfl hitems
  | cons first rest ih =>
      cases rest with
      | nil =>
          refine ⟨[(first, before ++ write first ++ after)], rfl, by simp, ?_⟩
          exact List.forall_mem_singleton.mpr (((Occurs.refl _).append_left _).append_right _)
      | cons second rest =>
          -- the separator goes to the piece behind it
          obtain ⟨pieces, hfirst, hjoin, hoccurs⟩ := ih (List.cons_ne_nil _ _) separator
          refine ⟨(first, before ++ write first) :: pieces, by simp [hfirst], ?_, ?_⟩
          · simp only [List.map_cons, String.join_cons, ← hjoin, String.intercalate_cons_cons,
              String.append_assoc]
          · exact List.forall_mem_cons.mpr ⟨(Occurs.refl _).append_left _, hoccurs⟩

theorem occurs_dropFinalBreaks (text : String) :
    Occurs (dropFinalBreaks text ++ "\n") (text ++ "\n") := by
  obtain ⟨n, hbreaks⟩ : ∃ n, text.toList.reverse.takeWhile (· = '\n') = List.replicate n '\n' := by
    refine ⟨_, List.eq_replicate_iff.mpr ⟨rfl, fun c hc => ?_⟩⟩
    simpa using List.all_eq_true.mp List.all_takeWhile c hc
  have htext : text.toList = (dropFinalBreaks text).toList ++ List.replicate n '\n' := by
    rw [dropFinalBreaks, String.toList_ofList, dropEndWhile, ← List.reverse_replicate,
      ← hbreaks, ← List.reverse_append, List.takeWhile_append_dropWhile, List.reverse_reverse]
  rw [Occurs, String.toList_append, String.toList_append, htext, List.append_assoc]
  change _ ++ ['\n'] <:+: _ ++ (List.replicate n '\n' ++ ['\n'])
  rw [← List.replicate_succ', List.replicate_succ]
  exact ⟨[], List.replicate n '\n', by simp⟩

end Text

open Json (Term)
open Text (Occurs)

namespace Console

theorem out_append (a b : Console) : (a ++ b).out = a.out ++ b.out := rfl

theorem out_foldl (parts : List Console) (before : Console) :
    (parts.foldl append before).out = before.out ++ String.join (parts.map out) := by
  induction parts generalizing before with
  | nil => simp
  | cons part rest ih =>
      rw [List.foldl_cons, ih, List.map_cons, String.join_cons, ← String.append_assoc]
      rfl

theorem out_concat (parts : List Console) : (concat parts).out = String.join (parts.map out) := by
  rw [concat, out_foldl]
  simp

end Console

theorem Render.occurs_code (mode : Render.Mode) (language text : String) :
    Occurs (Text.dropFinalBreaks text ++ "\n") (Render.code mode language text).out := by
  rw [Render.code]
  split
  · have hfence : (Console.println (Render.fenced language text)).out =
        "```" ++ language ++ "\n" ++ (Text.dropFinalBreaks text ++ "\n" ++ "```\n") := by
      simp [Console.println, Console.print, Render.fenced, String.append_assoc]
    rw [hfence]
    exact ((Occurs.refl _).append_right _).append_left _
  · exact Text.occurs_dropFinalBreaks text

theorem Json.Value.indentedItems_eq_map (depth : Nat) (items : List Json.Value) :
    indentedItems depth items = items.map (indented depth) := by
  induction items with
  | nil => rfl
  | cons v rest ih => rw [indentedItems, ih, List.map_cons]

theorem Json.Value.indented_object_ne_empty (members : List (String × Json.Value)) (depth : Nat) :
    (object members).indented depth ≠ "" := by
  intro hempty
  have hchars := congrArg String.toList hempty
  rw [indented, bracket] at hchars
  split at hchars <;> simp at hchars

namespace Cli

/-! What there is to write of a file. -/

namespace FileOutcome

/-- A tree, if there is one, has only finite numbers. -/
def Encodable (o : FileOutcome) : Prop := ∀ e, o = tree e → ∀ x ∈ e.numbers, x.isFinite = true

def source? : FileOutcome → Option String
  | failed _ | rejected _ => none
  | tree e => if e.numbers.all Number.isFinite then some (e.encode.indented 0) else none
  | code text => some text.text

theorem encodeError?_eq_none_iff {o : FileOutcome} : o.encodeError? = none ↔ o.Encodable := by
  cases o with
  | tree e => simp [encodeError?, Encodable, Js.Expr.encodeError?_eq_none_iff]
  | failed _ => simp [encodeError?, Encodable]
  | rejected _ => simp [encodeError?, Encodable]
  | code _ => simp [encodeError?, Encodable]

theorem isSome_source?_iff {o : FileOutcome} :
    o.source?.isSome = true ↔ o.isFailure = false ∧ o.Encodable := by
  cases o with
  | tree e => simp [source?, isFailure, Encodable]
  | failed _ => simp [source?, isFailure]
  | rejected _ => simp [source?, isFailure]
  | code _ => simp [source?, isFailure, Encodable]

end FileOutcome

/-- How the code or the tree of a file is shown: in JSON as the record of the file, otherwise
as it is, up to line breaks at its end. -/
def FileResult.block (mode : Render.Mode) (text : String) (r : FileResult) : String :=
  if mode = .json then r.encode.indented 1 else Text.dropFinalBreaks text ++ "\n"

/-- The code or the tree of a file is in the output. -/
def FileResult.Written (mode : Render.Mode) (out : String) (r : FileResult) : Prop :=
  ∃ text, r.outcome.source? = some text ∧ Occurs (r.block mode text) out

/-- The output falls into pieces in the order of the files, and what there is to write of a
file is in its piece. -/
def ShownInOrder (mode : Render.Mode) (results : List FileResult) (out : String) : Prop :=
  ∃ pieces : List (FileResult × String), pieces.map Prod.fst = results ∧
    out = String.join (pieces.map Prod.snd) ∧
    ∀ x ∈ pieces, ∀ text, x.1.outcome.source? = some text → Occurs (x.1.block mode text) x.2

/-- The output falls into pieces in the order of the files, and the code or the tree of each
file is in its piece. -/
def WrittenInOrder (mode : Render.Mode) (results : List FileResult) (out : String) : Prop :=
  ∃ pieces : List (FileResult × String), pieces.map Prod.fst = results ∧
    out = String.join (pieces.map Prod.snd) ∧ ∀ x ∈ pieces, x.1.Written mode x.2

namespace Session

variable {s : Session}

theorem occurs_showOutcome {name text : String} {o : FileOutcome} (htext : o.source? = some text) :
    Occurs (Text.dropFinalBreaks text ++ "\n") (s.showOutcome name o).out := by
  cases o with
  | failed _ => cases htext
  | rejected _ => cases htext
  | code bytes =>
      cases htext
      exact Render.occurs_code _ _ _
  | tree e =>
      rw [FileOutcome.source?] at htext
      split at htext
      next hfinite =>
        have hnone : e.encodeError? = none :=
          Js.Expr.encodeError?_eq_none_iff.mpr (List.all_eq_true.mp hfinite)
        cases htext
        rw [showOutcome, Js.Expr.indentedJson, hnone]
        exact Render.occurs_code _ _ _
      next => cases htext

theorem shownInOrder_of_ne_json (hmode : s.mode ≠ .json) (results : List FileResult) :
    ShownInOrder s.mode results (s.showResults results).out := by
  simp only [ShownInOrder, FileResult.block, if_neg hmode]
  unfold showResults
  rw [if_neg hmode]
  split
  next r =>
    refine ⟨[(r, (s.showOutcome "" r.outcome).out)], rfl, by simp, ?_⟩
    exact List.forall_mem_singleton.mpr fun text htext => occurs_showOutcome htext
  next =>
    refine ⟨results.map fun r => (r, (s.showNamed r).out), ?_, ?_, ?_⟩
    · simp [Function.comp_def]
    · rw [Console.out_concat, List.map_map, List.map_map]
      rfl
    · refine List.forall_mem_map.mpr fun r _ text htext => ?_
      rw [showNamed, Console.out_append, Console.out_append]
      exact ((occurs_showOutcome htext).append_left _).append_right _

theorem shownInOrder_of_json (hmode : s.mode = .json) {results : List FileResult}
    (hresults : results ≠ []) (hencodable : ∀ q ∈ results, q.outcome.Encodable) :
    ShownInOrder s.mode results (s.showResults results).out := by
  have hnone : results.findSome? (·.outcome.encodeError?) = none :=
    List.findSome?_eq_none_iff.mpr fun q hq =>
      FileOutcome.encodeError?_eq_none_iff.mpr (hencodable q hq)
  obtain ⟨pieces, hfirst, hjoin, hoccurs⟩ := Text.exists_pieces_of_intercalate hresults
    (fun r => r.encode.indented 1) ("," ++ ("\n" ++ Json.Value.indentation 1))
    ("[" ++ ("\n" ++ Json.Value.indentation 1)) ("\n" ++ Json.Value.indentation 0 ++ "]" ++ "\n")
  refine ⟨pieces, hfirst, ?_, fun x hx text _ => ?_⟩
  · unfold showResults
    rw [if_pos hmode, showJson, hnone, ← hjoin]
    change (Json.Value.array (results.map FileResult.encode)).indented 0 ++ "\n" = _
    rw [Json.Value.indented, Json.Value.indentedItems_eq_map, Json.Value.bracket,
      if_neg (by simpa using hresults), List.map_map]
    simp only [String.append_assoc]
    rfl
  · rw [FileResult.block, if_pos hmode]
    exact hoccurs x hx

theorem out_showResults_of_unencodable (hmode : s.mode = .json) {results : List FileResult}
    (hunencodable : ¬ ∀ q ∈ results, q.outcome.Encodable) : (s.showResults results).out = "" := by
  unfold showResults
  rw [if_pos hmode, showJson]
  split
  next => rfl
  next hnone =>
    refine absurd (fun q hq => ?_) hunencodable
    exact FileOutcome.encodeError?_eq_none_iff.mp (List.findSome?_eq_none_iff.mp hnone q hq)

/-- Unless one result keeps all from being written, there is a piece of output for each. -/
theorem shownInOrder {results : List FileResult} (hresults : results ≠ [])
    (hshown : s.mode = .json → ∀ q ∈ results, q.outcome.Encodable) :
    ShownInOrder s.mode results (s.showResults results).out := by
  by_cases hmode : s.mode = .json
  · exact shownInOrder_of_json hmode hresults (hshown hmode)
  · exact shownInOrder_of_ne_json hmode results

/-- What is written of a file does not hang on the other files, except that as JSON all of
them have to have a written form. -/
theorem written_showResults_iff {results : List FileResult} {r : FileResult} (hr : r ∈ results) :
    r.Written s.mode (s.showResults results).out ↔
      r.outcome.isFailure = false ∧ r.outcome.Encodable ∧
        (s.mode = .json → ∀ q ∈ results, q.outcome.Encodable) := by
  rw [← and_assoc, ← FileOutcome.isSome_source?_iff]
  constructor
  · rintro ⟨text, htext, hblock⟩
    refine ⟨Option.isSome_iff_exists.mpr ⟨text, htext⟩, fun hmode => ?_⟩
    apply Classical.byContradiction
    intro hunencodable
    rw [FileResult.block, if_pos hmode, out_showResults_of_unencodable hmode hunencodable] at hblock
    exact Json.Value.indented_object_ne_empty _ _ hblock.eq_empty
  · rintro ⟨hsource, hshown⟩
    obtain ⟨text, htext⟩ := Option.isSome_iff_exists.mp hsource
    obtain ⟨pieces, hfirst, hjoin, hblocks⟩ := shownInOrder (List.ne_nil_of_mem hr) hshown
    rw [← hfirst] at hr
    obtain ⟨x, hx, rfl⟩ := List.mem_map.mp hr
    refine ⟨text, htext, ?_⟩
    rw [hjoin]
    exact (hblocks x hx text htext).trans (Text.occurs_join (List.mem_map_of_mem hx))

theorem writtenInOrder_showResults_iff {results : List FileResult} (hresults : results ≠ []) :
    WrittenInOrder s.mode results (s.showResults results).out ↔
      ∀ r ∈ results, r.outcome.isFailure = false ∧ r.outcome.Encodable := by
  simp only [← FileOutcome.isSome_source?_iff]
  constructor
  · rintro ⟨pieces, rfl, -, hwritten⟩
    refine List.forall_mem_map.mpr fun x hx => ?_
    obtain ⟨text, htext, -⟩ := hwritten x hx
    exact Option.isSome_iff_exists.mpr ⟨text, htext⟩
  · intro hsources
    have hshown : s.mode = .json → ∀ q ∈ results, q.outcome.Encodable := fun _ q hq =>
      (FileOutcome.isSome_source?_iff.mp (hsources q hq)).2
    obtain ⟨pieces, hfirst, hjoin, hblocks⟩ := shownInOrder hresults hshown
    refine ⟨pieces, hfirst, hjoin, fun x hx => ?_⟩
    obtain ⟨text, htext⟩ := Option.isSome_iff_exists.mp
      (hsources x.1 (hfirst ▸ List.mem_map_of_mem hx))
    exact ⟨text, htext, hblocks x hx text htext⟩

/-! The command. -/

theorem out_log (records : List Log.Record) : (s.log records).out = "" := by
  rw [log]
  split <;> rfl

theorem compile_of_pipeline {p : Pipeline} (hlive : s.host.cancelled = false)
    (hpipeline : s.settings.pipeline = .ok p) (arguments : List String) :
    (s.compile false arguments).console.out = (s.showResults (s.resultsOf p arguments)).out ∧
      ((s.compile false arguments).failure = none ↔
        ∀ r ∈ s.resultsOf p arguments, r.outcome.isFailure = false) := by
  have hresults := result_compileFiles p hlive arguments
  rw [filesOf] at hresults
  simp only [compile, hpipeline, hresults, hlive, Bool.false_and, Bool.false_eq_true, if_false]
  have hout (c : Console) : (s.logEvents (s.compileFiles p (filesOf arguments)).events ++
      {} ++ c).out = c.out := by
    rw [Console.out_append, Console.out_append, logEvents, out_log]
    simp
  rw [filesOf] at hout
  have hcount : failures (s.resultsOf p arguments) = 0 ↔
      ∀ r ∈ s.resultsOf p arguments, r.outcome.isFailure = false := by
    simp [failures, List.countP_eq_zero]
  rw [← hcount]
  split
  next hzero => exact ⟨hout _, by simp [Outcome.done, hzero]⟩
  next hfailed => exact ⟨hout _, by simp [hfailed]⟩

theorem ofResult_false_ne_tree (result : Except PipelineError Output) (e : Js.Expr) :
    FileOutcome.ofResult false result ≠ .tree e := by
  cases result with
  | error _ => exact nofun
  | ok o =>
      rw [FileOutcome.ofResult]
      split
      · exact nofun
      · exact nofun

theorem encodable_of_code (hcode : s.emitsTrees = false) {p : Pipeline} {arguments : List String}
    {r : FileResult} (hr : r ∈ s.resultsOf p arguments) : r.outcome.Encodable := by
  obtain ⟨⟨name, loaded⟩, -, rfl⟩ := List.mem_map.mp hr
  rintro e (he : s.outcomeOf p loaded = .tree e)
  cases loaded with
  | error _ => cases he
  | ok script =>
      rw [outcomeOf, hcode] at he
      exact absurd he (ofResult_false_ne_tree _ e)

def truthText : String := "\x7b\"_type\":\"LiteralBoolean\",\"value\":true\x7d"

theorem ofJsonText_truthText : Node.ofJsonText truthText = .ok (.boolean true) :=
  Node.ofJsonText_boolean true

def mixedSession : Session where
  host := { disk := ⟨"/", [("/", .directory), ("/large.json", .file Node.overflowText),
    ("/true.json", .file truthText)]⟩ }
  settings := { Settings.standard with emit := "ast", output := "json" }

theorem loadFile_mixedSession {name text : String} {script : Node} (input : List UInt8)
    (hname : name ≠ inputName)
    (hread : mixedSession.host.disk.read name = .ok (Text.toBytes text))
    (hformat : Format.detect name text = .json)
    (hscript : Node.ofJsonText text = .ok script) :
    mixedSession.loadFile input name = .ok script := by
  have hsource : Node.ofFile name text = .ok script := by
    rw [Node.ofFile, hformat, Node.ofSource, Node.ofJson, hscript]
    rfl
  rw [loadFile, if_neg hname, hread]
  change (Node.ofFile name text).mapError _ = _
  rw [hsource]
  rfl

theorem load_mixedSession :
    mixedSession.load [] ["large.json", "true.json"] =
      [("large.json", .ok (.number (Number.infinity false))),
        ("true.json", .ok (.boolean true))] := by
  have hlarge (input : List UInt8) :
      mixedSession.loadFile input "large.json" = .ok (.number (Number.infinity false)) :=
    loadFile_mixedSession input (by decide) (by decide) (by decide +kernel)
      Node.ofJsonText_overflowText
  have htrue (input : List UInt8) : mixedSession.loadFile input "true.json" = .ok (.boolean true) :=
    loadFile_mixedSession input (by decide) (by decide) (by decide +kernel)
      ofJsonText_truthText
  rw [load, load, load, hlarge, htrue]

theorem resultsOf_mixedSession :
    mixedSession.resultsOf plainPipeline ["large.json", "true.json"] =
      [⟨"large.json", .tree (.number (Number.infinity false))⟩,
        ⟨"true.json", .tree (.boolean true)⟩] := by
  change (mixedSession.load [] ["large.json", "true.json"]).map _ = _
  rw [load_mixedSession]
  rfl

end Session

end Cli

end ScriptTree
