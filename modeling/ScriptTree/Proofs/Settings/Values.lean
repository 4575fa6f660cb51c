import ScriptTree.Proofs.Settings.Layers
import ScriptTree.Settings.Decode

/-!
Settings one by one. The settings that a layer is decoded to are the values that stand at the
places of the settings, each converted to its own type.
-/

namespace ScriptTree.Settings

inductive Setting where
  | dialect
  | strict
  | reconcile
  | affix
  | expression
  | evaluate
  | emit
  | minify
  | verify
  | concurrency
  | output
  | verbose
  | logLevel
  | address
  | shutdownTimeout
  | maxBodyBytes
deriving DecidableEq

namespace Setting

def Value : Setting → Type
  | dialect => Dialect
  | strict | evaluate | minify | verify | verbose => Bool
  | concurrency | maxBodyBytes => Int
  | shutdownTimeout => Duration
  | reconcile | affix | expression | emit | output | logLevel | address => String

instance decidableEqValue : (x : Setting) → DecidableEq x.Value
  | dialect => inferInstanceAs (DecidableEq Dialect)
  | strict | evaluate | minify | verify | verbose => inferInstanceAs (DecidableEq Bool)
  | concurrency | maxBodyBytes => inferInstanceAs (DecidableEq Int)
  | shutdownTimeout => inferInstanceAs (DecidableEq Duration)
  | reconcile | affix | expression | emit | output | logLevel | address =>
    inferInstanceAs (DecidableEq String)

/-- The names that lead to a setting. -/
def path : Setting → List String
  | dialect => ["dialect"]
  | strict => ["strict"]
  | reconcile => ["reconcile"]
  | affix => ["reconcile_affix"]
  | expression => ["reconcile_expr"]
  | evaluate => ["evaluate"]
  | emit => ["emit"]
  | minify => ["minify"]
  | verify => ["verify"]
  | concurrency => ["concurrency"]
  | output => ["output"]
  | verbose => ["verbose"]
  | logLevel => ["log_level"]
  | address => ["server", "addr"]
  | shutdownTimeout => ["server", "shutdown_timeout"]
  | maxBodyBytes => ["server", "max_body_bytes"]

def name (x : Setting) : String := String.intercalate "." x.path

def get : (x : Setting) → Settings → x.Value
  | dialect, s => s.dialect
  | strict, s => s.strict
  | reconcile, s => s.reconcile
  | affix, s => s.affix
  | expression, s => s.expression
  | evaluate, s => s.evaluate
  | emit, s => s.emit
  | minify, s => s.minify
  | verify, s => s.verify
  | concurrency, s => s.concurrency
  | output, s => s.output
  | verbose, s => s.verbose
  | logLevel, s => s.logLevel
  | address, s => s.server.address
  | shutdownTimeout, s => s.server.shutdownTimeout
  | maxBodyBytes, s => s.server.maxBodyBytes

/-- The value of a setting that stands nowhere, or null in its place. -/
def empty (x : Setting) : x.Value := x.get {}

def convert (c : Reserved.Catalogue) : (x : Setting) → Raw → Raw.Conversion x.Value
  | dialect => Raw.toDialect c
  | strict | evaluate | minify | verify | verbose => Raw.toBool
  | concurrency => Raw.toInt "int"
  | maxBodyBytes => Raw.toInt "int64"
  | shutdownTimeout => Raw.toDuration
  | reconcile | affix | expression | emit | output | logLevel | address => Raw.toText

end Setting

variable {α β : Type}

/-- The value that is read from what stands in a place. -/
def readAs (empty : α) (convert : Raw → Raw.Conversion α) : Option Raw → Raw.Conversion α
  | none | some .null => .ok empty
  | some v => convert v

/-- The value of a setting, by what stands in its place. -/
def Setting.read (x : Setting) (raw? : Option Raw) (c : Reserved.Catalogue := .builtin) :
    Raw.Conversion x.Value :=
  readAs x.empty (x.convert c) raw?

/-! Reading that collects what does not fit. -/

/-- Reading gives the result and leaves the reasons as they are, or has further reasons if there is
no result. -/
structure Gives {α : Type} (m : Decoding α) (result : Option α) : Prop where
  run : ∀ a, result = some a → ∀ reasons, m.run reasons = (a, reasons)
  report : result = none →
    ∀ reasons, ∃ a reason more, m.run reasons = (a, reasons ++ reason :: more)

theorem gives_pure (a : α) : Gives (pure a) (some a) := by
  refine ⟨fun b hb reasons => ?_, nofun⟩
  cases hb
  rfl

theorem Gives.bind_some {m : Decoding α} {a : α} {f : α → Decoding β} {result : Option β}
    (hm : Gives m (some a)) (hf : Gives (f a) result) : Gives (m >>= f) result := by
  have hrun : ∀ reasons, (m >>= f).run reasons = (f a).run reasons := by
    intro reasons
    rw [StateT.run_bind, hm.run a rfl]
    rfl
  refine ⟨fun b hb reasons => ?_, fun hnone reasons => ?_⟩
  · rw [hrun]
    exact hf.run b hb reasons
  · rw [hrun]
    exact hf.report hnone reasons

theorem Gives.bind {m : Decoding α} {result : Option α} {f : α → Decoding β} {g : α → Option β}
    (hm : Gives m result) (hf : ∀ a, Gives (f a) (g a)) : Gives (m >>= f) (result.bind g) := by
  cases result with
  | some a => exact hm.bind_some (hf a)
  | none =>
      refine ⟨nofun, fun _ reasons => ?_⟩
      obtain ⟨a, reason, more, ha⟩ := hm.report rfl reasons
      have hrun : (m >>= f).run reasons = (f a).run (reasons ++ reason :: more) := by
        rw [StateT.run_bind, ha]
        rfl
      cases hg : g a with
      | some b => exact ⟨b, reason, more, by rw [hrun, (hf a).run b hg]⟩
      | none =>
          obtain ⟨b, other, rest, hb⟩ := (hf a).report hg (reasons ++ reason :: more)
          exact ⟨b, reason, more ++ other :: rest, by rw [hrun, hb]; simp⟩

theorem gives_field (l : Layer) (place name : String) (empty : α)
    (convert : Raw → Raw.Conversion α) :
    Gives (field l place name empty convert) (readAs empty convert (l.find? name)).toOption := by
  rw [field]
  cases l.find? name with
  | none => exact gives_pure empty
  | some v =>
      cases v with
      | null => exact gives_pure empty
      | _ =>
          simp only [readAs]
          split
          next a hconvert =>
            rw [hconvert]
            exact gives_pure a
          next reason hconvert =>
            rw [hconvert]
            exact ⟨nofun, fun _ reasons => ⟨empty, _, [], rfl⟩⟩

/-- Reading takes back no reasons. -/
def Collects (m : Decoding α) : Prop := ∀ reasons, reasons <+: (m.run reasons).2

theorem Gives.collects {m : Decoding α} {result : Option α} (hm : Gives m result) : Collects m := by
  intro reasons
  cases result with
  | some a => simp only [hm.run a rfl, List.prefix_rfl]
  | none =>
      obtain ⟨a, reason, more, hrun⟩ := hm.report rfl reasons
      rw [hrun]
      exact List.prefix_append _ _

theorem prefix_run_bind {m : Decoding α} {f : α → Decoding β} (hf : ∀ a, Collects (f a))
    (reasons : List String) : (m.run reasons).2 <+: ((m >>= f).run reasons).2 :=
  hf _ _

theorem Collects.bind {m : Decoding α} {f : α → Decoding β} (hm : Collects m)
    (hf : ∀ a, Collects (f a)) : Collects (m >>= f) :=
  fun reasons => (hm reasons).trans (prefix_run_bind hf reasons)

/-! All settings. -/

def serverOfValues? (value : (x : Setting) → Option x.Value) : Option ServerSettings := do
  let address ← value .address
  let shutdownTimeout ← value .shutdownTimeout
  let maxBodyBytes ← value .maxBodyBytes
  return ⟨address, shutdownTimeout, maxBodyBytes⟩

/-- Settings with given values, if each of them has one. -/
def ofValues? (value : (x : Setting) → Option x.Value) : Option Settings := do
  let dialect ← value .dialect
  let strict ← value .strict
  let reconcile ← value .reconcile
  let affix ← value .affix
  let expression ← value .expression
  let evaluate ← value .evaluate
  let emit ← value .emit
  let minify ← value .minify
  let verify ← value .verify
  let concurrency ← value .concurrency
  let output ← value .output
  let verbose ← value .verbose
  let logLevel ← value .logLevel
  let server ← serverOfValues? value
  return ⟨dialect, strict, reconcile, affix, expression, evaluate, emit, minify, verify,
    concurrency, output, verbose, logLevel, server⟩

theorem ofValues?_eq_some_iff {value : (x : Setting) → Option x.Value} {s : Settings} :
    ofValues? value = some s ↔ ∀ x, value x = some (x.get s) := by
  constructor
  · intro h x
    obtain ⟨dialect, hdialect, h⟩ := Option.bind_eq_some_iff.mp h
    obtain ⟨strict, hstrict, h⟩ := Option.bind_eq_some_iff.mp h
    obtain ⟨reconcile, hreconcile, h⟩ := Option.bind_eq_some_iff.mp h
    obtain ⟨affix, haffix, h⟩ := Option.bind_eq_some_iff.mp h
    obtain ⟨expression, hexpression, h⟩ := Option.bind_eq_some_iff.mp h
    obtain ⟨evaluate, hevaluate, h⟩ := Option.bind_eq_some_iff.mp h
    obtain ⟨emit, hemit, h⟩ := Option.bind_eq_some_iff.mp h
    obtain ⟨minify, hminify, h⟩ := Option.bind_eq_some_iff.mp h
    obtain ⟨verify, hverify, h⟩ := Option.bind_eq_some_iff.mp h
    obtain ⟨concurrency, hconcurrency, h⟩ := Option.bind_eq_some_iff.mp h
    obtain ⟨output, houtput, h⟩ := Option.bind_eq_some_iff.mp h
    obtain ⟨verbose, hverbose, h⟩ := Option.bind_eq_some_iff.mp h
    obtain ⟨logLevel, hlogLevel, h⟩ := Option.bind_eq_some_iff.mp h
    obtain ⟨server, hserver, h⟩ := Option.bind_eq_some_iff.mp h
    obtain ⟨address, haddress, hserver⟩ := Option.bind_eq_some_iff.mp hserver
    obtain ⟨shutdownTimeout, hshutdownTimeout, hserver⟩ := Option.bind_eq_some_iff.mp hserver
    obtain ⟨maxBodyBytes, hmaxBodyBytes, hserver⟩ := Option.bind_eq_some_iff.mp hserver
    cases hserver
    cases h
    cases x <;> assumption
  · intro h
    simp only [ofValues?, serverOfValues?, h]
    rfl

/-- What stands in the place of a setting, read as its value. -/
def valueIn (c : Reserved.Catalogue) (l : Layer) (x : Setting) : Option x.Value :=
  (x.read (Raw.at? x.path (.table l)) c).toOption

variable {c : Reserved.Catalogue} {l inner : Layer}

theorem gives_setting (x : Setting) {name : String} (hpath : x.path = [name])
    (hl : Raw.Clean x.path (.table l)) :
    Gives (field l "" name x.empty (x.convert c)) (valueIn c l x) := by
  have hfind : l.find? name = Raw.at? x.path (.table l) := by
    rw [hpath] at hl ⊢
    rw [Layer.find?_of_clean hl, Raw.at?_table]
    cases l.lookup name <;> rfl
  rw [valueIn, ← hfind]
  exact gives_field l "" name x.empty (x.convert c)

theorem gives_serverSetting (hserver : l.lookup "server" = some (.table inner)) (x : Setting)
    {name : String} (hpath : x.path = ["server", name]) (hl : Raw.Clean x.path (.table l)) :
    Gives (field inner "server." name x.empty (x.convert c)) (valueIn c l x) := by
  have hfind : inner.find? name = Raw.at? x.path (.table l) := by
    rw [hpath] at hl ⊢
    have hinner := (hl l rfl "server" _ (Layer.mem_of_lookup hserver) rfl).2
    rw [Layer.find?_of_clean hinner, Raw.at?_table, hserver, Option.bind_some, Raw.at?_table]
    cases inner.lookup name <;> rfl
  rw [valueIn, ← hfind]
  exact gives_field inner "server." name x.empty (x.convert c)

theorem gives_decodeServer (hl : ∀ x : Setting, Raw.Clean x.path (.table l))
    (hserver : l.lookup "server" = some (.table inner)) :
    Gives (decodeServer inner) (serverOfValues? (valueIn c l)) :=
  (gives_serverSetting hserver .address rfl (hl _)).bind fun _ =>
    (gives_serverSetting hserver .shutdownTimeout rfl (hl _)).bind fun _ =>
      (gives_serverSetting hserver .maxBodyBytes rfl (hl _)).bind fun _ => gives_pure _

theorem gives_decodeAll (hl : ∀ x : Setting, Raw.Clean x.path (.table l))
    (hserver : l.lookup "server" = some (.table inner)) :
    Gives (decodeAll l c) (ofValues? (valueIn c l)) := by
  have hinner {convert : Raw → Raw.Conversion Layer}
      (hconvert : convert (.table inner) = .ok inner) :
      Gives (field l "" "server" [] convert) (some inner) := by
    have hfield := gives_field l "" "server" [] convert
    rwa [Layer.find?_of_clean (hl .address), hserver, readAs, hconvert] at hfield
    exact nofun
  refine (gives_setting .dialect rfl (hl _)).bind fun _ => ?_
  refine (gives_setting .strict rfl (hl _)).bind fun _ => ?_
  refine (gives_setting .reconcile rfl (hl _)).bind fun _ => ?_
  refine (gives_setting .affix rfl (hl _)).bind fun _ => ?_
  refine (gives_setting .expression rfl (hl _)).bind fun _ => ?_
  refine (gives_setting .evaluate rfl (hl _)).bind fun _ => ?_
  refine (gives_setting .emit rfl (hl _)).bind fun _ => ?_
  refine (gives_setting .minify rfl (hl _)).bind fun _ => ?_
  refine (gives_setting .verify rfl (hl _)).bind fun _ => ?_
  refine (gives_setting .concurrency rfl (hl _)).bind fun _ => ?_
  refine (gives_setting .output rfl (hl _)).bind fun _ => ?_
  refine (gives_setting .verbose rfl (hl _)).bind fun _ => ?_
  refine (gives_setting .logLevel rfl (hl _)).bind fun _ => ?_
  exact (hinner rfl).bind_some ((gives_decodeServer hl hserver).bind fun _ => gives_pure _)

/-- A layer is decoded to the settings that have the values that stand in their places. -/
theorem decode_eq_ok_iff (hl : ∀ x : Setting, Raw.Clean x.path (.table l))
    (hserver : l.lookup "server" = some (.table inner)) {s : Settings} :
    decode l c = .ok s ↔
      ∀ x : Setting, x.read (Raw.at? x.path (.table l)) c = .ok (x.get s) := by
  have hgives : Gives (decodeAll l c) _ := gives_decodeAll hl hserver
  have hdecode : decode l c = .ok s ↔ ofValues? (valueIn c l) = some s := by
    rw [decode]
    cases hvalues : ofValues? (valueIn c l) with
    | some t =>
        rw [hgives.run t hvalues]
        simp
    | none =>
        obtain ⟨t, reason, more, hrun⟩ := hgives.report hvalues []
        rw [hrun]
        simp
  rw [hdecode, ofValues?_eq_some_iff]
  refine forall_congr' fun x => ?_
  rw [valueIn]
  cases x.read (Raw.at? x.path (.table l)) c <;> simp [Except.toOption]

theorem collects_decodeServer (inner : Layer) : Collects (decodeServer inner) := by
  rw [decodeServer]
  iterate 3 refine (gives_field _ _ _ _ _).collects.bind fun _ => ?_
  exact (gives_pure _).collects

/-- The dialect of decoded settings is what stands under its name. -/
theorem read_dialect_of_decode {s : Settings} (hdecode : decode l c = .ok s) :
    Setting.dialect.read (l.find? "dialect") c = .ok s.dialect := by
  have hgives := gives_field l "" "dialect" .unset (Raw.toDialect c)
  have hvalue : ((decodeAll l c).run []).1.dialect =
      ((field l "" "dialect" .unset (Raw.toDialect c)).run []).1 := rfl
  have hreasons : ((field l "" "dialect" .unset (Raw.toDialect c)).run []).2 <+:
      ((decodeAll l c).run []).2 := by
    rw [decodeAll]
    refine prefix_run_bind (fun _ => ?_) []
    iterate 13 refine (gives_field _ _ _ _ _).collects.bind fun _ => ?_
    exact (collects_decodeServer _).bind fun _ => (gives_pure _).collects
  have hempty : ((decodeAll l c).run []).2 = [] ∧ ((decodeAll l c).run []).1 = s := by
    rw [decode] at hdecode
    split at hdecode
    next t hrun =>
      cases hdecode
      rw [hrun]
      exact ⟨rfl, rfl⟩
    next => cases hdecode
  obtain ⟨hnone, rfl⟩ := hempty
  rw [hnone, List.prefix_nil] at hreasons
  rw [hvalue]
  change readAs .unset (Raw.toDialect c) (l.find? "dialect") = _
  cases hread : readAs .unset (Raw.toDialect c) (l.find? "dialect") with
  | ok d =>
      rw [hgives.run d (by rw [hread]; rfl)]
      rfl
  | error reason =>
      obtain ⟨a, first, more, hrun⟩ := hgives.report (by rw [hread]; rfl) []
      rw [hrun] at hreasons
      cases hreasons

end ScriptTree.Settings
