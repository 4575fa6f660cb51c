import ScriptTree.Proofs.Js.Encoding
import ScriptTree.Proofs.Json.Reader
import ScriptTree.Proofs.Json.Writer
import ScriptTree.Proofs.Script.Written
import ScriptTree.Server

/-!
Successful answers to posted scripts. The answer is complete exactly if its identifier is
well-formed text and, where the tree is asked for, the tree that was compiled has only
finite numbers; a number that is not finite leaves the body empty.
-/

namespace ScriptTree

open Json (Term Value)
open Json.Syntax (Document)

/-! The tree that a pipeline compiles a script to. -/

namespace Pipeline

/-- What the interpreter leaves to compile, if it rejects nothing. -/
def Leaves (p : Pipeline) (cancelled : Bool) (script left : Node) : Prop :=
  p.interpreter cancelled script = .ok (some (.residual left)) ∨
    p.interpreter cancelled script = .ok (some .unreduced) ∧ left = script

def Compiles (p : Pipeline) (cancelled : Bool) (script : Node) (e : Js.Expr) : Prop :=
  ∃ left, p.Leaves cancelled script left ∧ left.compile p.identifiers = .ok e

theorem compile_of_build {p : Pipeline} {script : Node} {o : Output}
    (hbuild : p.build script = .ok o) :
    ∃ e, script.compile p.identifiers = .ok e ∧ o.tree = some e ∧ o.diagnostics = [] := by
  rw [build] at hbuild
  cases hcompile : script.compile p.identifiers with
  | error cause =>
      rw [hcompile] at hbuild
      cases hbuild
  | ok e =>
      rw [hcompile] at hbuild
      change (do let code ← p.finish e.source; return _) = _ at hbuild
      cases hfinish : p.finish e.source with
      | error cause =>
          rw [hfinish] at hbuild
          cases hbuild
      | ok code =>
          rw [hfinish] at hbuild
          cases hbuild
          exact ⟨e, rfl, rfl, rfl⟩

/-- The tree of an output is the one that the script was compiled to. -/
theorem compiles_iff {p : Pipeline} {cancelled : Bool} {script : Node} {o : Output}
    (hrun : (p.run cancelled script).result = .ok o) (e : Js.Expr) :
    p.Compiles cancelled script e ↔ o.tree = some e := by
  have hbuilt {left : Node} (hbuild : p.build left = .ok o) :
      left.compile p.identifiers = .ok e ↔ o.tree = some e := by
    obtain ⟨d, hcompile, htree, -⟩ := compile_of_build hbuild
    rw [hcompile, htree, Except.ok.injEq, Option.some.injEq]
  rw [run] at hrun
  split at hrun
  next => cases hrun
  next => cases hrun
  next hinterpreted =>
    cases hrun
    simp [Compiles, Leaves, hinterpreted]
  next left hinterpreted =>
    rw [← hbuilt hrun]
    simp [Compiles, Leaves, hinterpreted]
  next hinterpreted =>
    rw [← hbuilt hrun]
    simp [Compiles, Leaves, hinterpreted]

end Pipeline

namespace Server

def Request.asksTree (r : Request) : Prop := Target.parameter r.target "emit" = "ast"

/-- The members of an object that reports a compiled script: the identifier of the request,
and the tree where it is asked for. -/
structure Reports (id : ByteString) (asked : Prop) (compiled : Js.Expr → Prop)
    (members : List (ByteString × Term)) : Prop where
  keys : (members.map Prod.fst).Nodup
  id : members.lookup (Text.toBytes "request_id") = some (.string id)
  tree : asked → ∃ e, compiled e ∧ members.lookup (Text.toBytes "ast") = some e.encode.term

/-- The body is one JSON object that reports a compiled script under the identifier of the
response. -/
def Response.Complete (response : Response) (asked : Prop) (compiled : Js.Expr → Prop) : Prop :=
  ∃ raw members, Document response.body.toList (.object raw members) ∧
    Reports response.id asked compiled members

/-! Where an answer of status 200 comes from. -/

theorem status_classify_ne (e : PipelineError) : (classify e).1 ≠ 200 := by
  unfold classify
  split <;> decide

theorem status_refuse (id : ByteString) (status : Nat) (message kind : String) :
    (refuse id status message kind).status = status := rfl

theorem status_success (id : ByteString) (tree : Bool) (o : Output) :
    (success id tree o).status = if o.diagnostics.isEmpty then 200 else 422 := by
  simp only [success]
  split <;> rfl

theorem exists_of_compile_status {s : Server} {id : ByteString} {r : Request}
    (hstatus : (s.compile id r).status = 200) :
    ∃ script o, Node.ofJson r.body = .ok script ∧
      (s.pipeline.run r.cancelled script).result = .ok o ∧ o.diagnostics = [] ∧
      s.compile id r = success id (Target.parameter r.target "emit" = "ast") o := by
  simp only [compile] at hstatus ⊢
  split at hstatus
  next => exact absurd hstatus (by rw [status_refuse]; decide)
  next hemit =>
  split at hstatus
  next => exact absurd hstatus (by rw [status_refuse]; decide)
  next hbroken =>
  split at hstatus
  next => exact absurd hstatus (by rw [status_refuse]; decide)
  next hsize =>
  split at hstatus
  next => exact absurd hstatus (by rw [status_refuse]; decide)
  next script hscript =>
  split at hstatus
  next e _ =>
    rw [status_refuse] at hstatus
    exact absurd hstatus (status_classify_ne e)
  next o ho =>
    refine ⟨script, o, hscript, ho, ?_, ?_⟩
    · rw [status_success] at hstatus
      split at hstatus
      next hempty => exact List.isEmpty_iff.mp hempty
      next => exact absurd hstatus (by decide)
    · simp only [hemit, hbroken, hsize, if_false, Bool.false_eq_true]

theorem route_of_status {s : Server} {id : ByteString} {r : Request}
    (hroute : Route.ofPath? (Target.path r.target) = some .compile)
    (hstatus : (s.route id r).status = 200) : s.route id r = s.compile id r := by
  simp only [route, hroute] at hstatus ⊢
  split at hstatus
  next => exact absurd hstatus (by decide)
  next hknown =>
  split at hstatus
  next => exact absurd hstatus (by decide)
  next hmethod =>
  split at hstatus
  next haccepts => simp only [hknown, hmethod, haccepts, if_true, if_false, Bool.false_eq_true]
  next => exact absurd hstatus (by decide)

theorem handle_eq (s : Server) (fresh : ByteString) (r : Request) :
    ∃ id, s.handle fresh r =
      { s.route id r with id, encoding := encodingOf r (s.route id r) } := ⟨_, rfl⟩

theorem exists_of_handle_status {s : Server} {fresh : ByteString} {r : Request}
    (hroute : Route.ofPath? (Target.path r.target) = some .compile)
    (hstatus : (s.handle fresh r).status = 200) :
    ∃ script o, Node.ofJson r.body = .ok script ∧
      (s.pipeline.run r.cancelled script).result = .ok o ∧ o.diagnostics = [] ∧
      (s.handle fresh r).body =
        (success (s.handle fresh r).id (Target.parameter r.target "emit" = "ast") o).body := by
  obtain ⟨id, hhandle⟩ := s.handle_eq fresh r
  rw [hhandle] at hstatus ⊢
  dsimp only at hstatus ⊢
  have hcompile := route_of_status hroute hstatus
  rw [hcompile] at hstatus
  obtain ⟨script, o, hscript, hrun, hdiagnostics, hsuccess⟩ :=
    exists_of_compile_status hstatus
  refine ⟨script, o, hscript, hrun, hdiagnostics, ?_⟩
  rw [hcompile, hsuccess]

/-! The body of such an answer. -/

section Body

variable {id : ByteString} {asked : Bool} {o : Output}

/-- The members for a script that was not rejected. -/
def reported (id : ByteString) (asked : Bool) (o : Output) : List (String × Value) :=
  ("request_id", .string id) ::
    if asked then o.tree.toList.map fun e => ("ast", e.encode)
    else if o.code.isEmpty then [] else [("code", .string o.code)]

theorem body_success_of_encodable (hdiagnostics : o.diagnostics = [])
    (hencodable : asked = true → o.tree.bind Js.Expr.encodeError? = none) :
    (success id asked o).body = (Value.object (reported id asked o)).compact ++ "\n" := by
  cases asked with
  | false => simp [success, answer, reported, Output.fields, hdiagnostics]
  | true =>
      simp only [success, if_true, hencodable rfl]
      cases htree : o.tree <;> simp [answer, reported, Output.fields, htree, hdiagnostics]

theorem body_success_of_unencodable (hasked : asked = true)
    (hunencodable : o.tree.bind Js.Expr.encodeError? ≠ none) : (success id asked o).body = "" := by
  obtain ⟨e, he⟩ := Option.ne_none_iff_exists'.mp hunencodable
  simp [success, hasked, he]

theorem unwritableMember?_reported
    (hencodable : asked = true → o.tree.bind Js.Expr.encodeError? = none) :
    Value.unwritableMember? (reported id asked o) = none := by
  rw [reported, Value.unwritableMember?_cons]
  cases asked with
  | false =>
      cases o.code.isEmpty <;> rfl
  | true =>
      cases htree : o.tree with
      | none => rfl
      | some e =>
          have hnone : e.encodeError? = none := by
            simpa [htree] using hencodable rfl
          simp [Value.unwritable?, Js.Expr.unwritable?_encode_of_encodeError? hnone]

theorem nodup_keys_reported :
    ((Value.memberTerms (reported id asked o)).map Prod.fst).Nodup := by
  cases asked with
  | false =>
      by_cases hcode : o.code = []
      · simp [reported, hcode, Value.memberTerms]
      · have hkey : Text.toBytes "request_id" ≠ Text.toBytes "code" := by decide
        simp [reported, hcode, Value.memberTerms, hkey]
  | true =>
      cases htree : o.tree with
      | none => simp [reported, htree, Value.memberTerms]
      | some e =>
          have hkey : Text.toBytes "request_id" ≠ Text.toBytes "ast" := by decide
          simp [reported, htree, Value.memberTerms, hkey]

/-- What is reported lacks nothing but a tree that was not compiled. -/
theorem reports_reported_iff :
    Reports id (asked = true) (fun e => o.tree = some e)
        (Value.memberTerms (reported id asked o)) ↔
      id.text?.isSome = true ∧ (asked = true → ∃ e, o.tree = some e) := by
  have hid : (Value.memberTerms (reported id asked o)).lookup (Text.toBytes "request_id") =
      some (.string (Text.ofChars (Text.chars id))) := by
    simp [reported, Value.memberTerms, Value.term]
  constructor
  · intro hreport
    have htext : Text.ofChars (Text.chars id) = id := by
      simpa [hid] using hreport.id
    refine ⟨Text.ofChars_chars_eq_iff.mp htext, fun hasked => ?_⟩
    obtain ⟨e, htree, -⟩ := hreport.tree hasked
    exact ⟨e, htree⟩
  · rintro ⟨htext, htree⟩
    refine ⟨nodup_keys_reported, ?_, fun hasked => ?_⟩
    · rw [hid, Text.ofChars_chars_eq_iff.mpr htext]
    · obtain ⟨e, he⟩ := htree hasked
      have hkey : (Text.toBytes "ast" == Text.toBytes "request_id") = false := by decide
      exact ⟨e, he, by simp [reported, hasked, he, Value.memberTerms, List.lookup_cons, hkey]⟩

theorem finite_of_encodable (hencodable : asked = true → o.tree.bind Js.Expr.encodeError? = none)
    (htree : asked = true → ∃ e, o.tree = some e) (hasked : asked = true) :
    ∃ e, o.tree = some e ∧ ∀ x ∈ e.numbers, x.isFinite = true := by
  obtain ⟨e, he⟩ := htree hasked
  have hnone : e.encodeError? = none := by
    simpa [he] using hencodable hasked
  exact ⟨e, he, Js.Expr.encodeError?_eq_none_iff.mp hnone⟩

end Body

theorem complete_iff_of_body {response : Response} {asked : Bool} {o : Output}
    (hdiagnostics : o.diagnostics = [])
    (hbody : response.body = (success response.id asked o).body) :
    response.Complete (asked = true) (fun e => o.tree = some e) ↔
      response.id.text?.isSome = true ∧
        (asked = true → ∃ e, o.tree = some e ∧ ∀ x ∈ e.numbers, x.isFinite = true) := by
  by_cases hencodable : asked = true → o.tree.bind Js.Expr.encodeError? = none
  · rw [body_success_of_encodable hdiagnostics hencodable] at hbody
    have hwritable : Value.unwritableMember? (reported response.id asked o) = none :=
      unwritableMember?_reported hencodable
    obtain ⟨raw, hdocument⟩ := Value.document_object hwritable
    have hreport : response.Complete (asked = true) (fun e => o.tree = some e) ↔
        Reports response.id (asked = true) (fun e => o.tree = some e)
          (Value.memberTerms (reported response.id asked o)) := by
      -- a text stands for one value only, so its members are the ones that were written
      rw [← hbody] at hdocument
      constructor
      · rintro ⟨_, members, hother, hreport⟩
        cases hother.eq hdocument
        exact hreport
      · exact fun hreport => ⟨raw, _, hdocument, hreport⟩
    rw [hreport, reports_reported_iff]
    refine and_congr_right fun _ => ⟨finite_of_encodable hencodable, ?_⟩
    intro hfinite hasked
    obtain ⟨e, he, -⟩ := hfinite hasked
    exact ⟨e, he⟩
  · -- without a body there is no value to read
    obtain ⟨hasked, hunencodable⟩ := Classical.not_imp.mp hencodable
    rw [body_success_of_unencodable hasked hunencodable] at hbody
    constructor
    · rintro ⟨_, _, hdocument, -⟩
      exact absurd (congrArg String.toList hbody) hdocument.ne_nil
    · rintro ⟨-, hfinite⟩
      obtain ⟨e, he, hnumbers⟩ := hfinite hasked
      rw [he, Option.bind_some] at hunencodable
      exact absurd (Js.Expr.encodeError?_eq_none_iff.mpr hnumbers) hunencodable

/-- A request for the tree of a number beyond the range of the doubles. -/
def overflowPosted : Request where
  method := "POST"
  target := "/compile?emit=ast"
  headers := [("Content-Type", "application/json"),
    ("X-Request-ID", "3f2504e0-4f89-41d3-9a0c-0305e82c3301")]
  body := Node.overflowText

theorem ofJson_overflowPosted :
    Node.ofJson overflowPosted.body = .ok (.number (Number.infinity false)) := by
  change (Node.ofJsonText Node.overflowText).mapError _ = _
  rw [Node.ofJsonText_overflowText]
  rfl

def plain : Server := ⟨⟨.standard, .passthrough, false, false⟩, .standard, standardMaxBody⟩

theorem run_number (ids : Identifier.Options) (x : Number) :
    ((Pipeline.mk ids .passthrough false false).run false (.number x)).result =
      .ok { code := (Js.Expr.number x).source, tree := some (.number x) } := rfl

theorem compile_overflowPosted (id : ByteString) :
    plain.compile id overflowPosted = success id true
      { code := (Js.Expr.number (Number.infinity false)).source,
        tree := some (.number (Number.infinity false)) } := by
  have hemit : Target.parameter overflowPosted.target "emit" = "ast" := by decide
  have hsize : ¬ plain.maxBodyBytes < overflowPosted.body.length := by decide
  simp only [compile, hemit, hsize, ofJson_overflowPosted]
  simp [plain, overflowPosted, run_number]

theorem route_overflowPosted :
    Route.ofPath? (Target.path overflowPosted.target) = some .compile := by
  decide

theorem status_overflowPosted (fresh : ByteString) :
    (plain.handle fresh overflowPosted).status = 200 := by
  have hknown : knownMethods.contains Route.compile.method = true := by decide
  have hmethod : overflowPosted.method = Route.compile.method := rfl
  have haccepts : acceptsBody overflowPosted = true := by decide +kernel
  obtain ⟨id, hhandle⟩ := plain.handle_eq fresh overflowPosted
  rw [hhandle]
  dsimp only
  simp only [route, route_overflowPosted, hmethod, hknown, haccepts, compile_overflowPosted]
  simp [status_success]

end Server

end ScriptTree
