import ScriptTree.Cli
import ScriptTree.Proofs.Cli.Given
import ScriptTree.Proofs.Settings.Values
import ScriptTree.Proofs.Yaml.Data
import Mathlib.Data.List.Induction

/-!
Which source a setting is taken from. A setting has the value of the highest source that sets it:
options of the command line, variables of the environment, a file, the standard settings. What the
sources say about other settings makes no difference.
-/

namespace ScriptTree.Settings

open Raw (at? last? Fits Opened Clean Orderly)

/-! Names of settings. -/

namespace Setting

def all : List Setting :=
  [dialect, strict, reconcile, affix, expression, evaluate, emit, minify, verify, concurrency,
    output, verbose, logLevel, address, shutdownTimeout, maxBodyBytes]

theorem mem_all (x : Setting) : x ∈ all := by
  cases x <;> decide

theorem splitOn_name (x : Setting) : Text.splitOn '.' x.name = x.path := by
  have hall : ∀ x ∈ all, Text.splitOn '.' x.name = x.path := by decide +kernel
  exact hall x x.mem_all

theorem eq_or_apart (x y : Setting) : x = y ∨ Apart x.path y.path := by
  have hall : ∀ x ∈ all, ∀ y ∈ all, x = y ∨ Apart x.path y.path := by decide +kernel
  exact hall x x.mem_all y y.mem_all

end Setting

/-- Whether a name is that of a setting, or has nothing to do with any. -/
def Sorted (name : String) : Prop :=
  (∃ x : Setting, name = x.name) ∨ ∀ x : Setting, Apart (Text.splitOn '.' name) x.path

theorem sorted_iff {name : String} :
    Sorted name ↔ (∃ x ∈ Setting.all, name = x.name) ∨
      ∀ x ∈ Setting.all, Apart (Text.splitOn '.' name) x.path := by
  simp [Sorted, Setting.mem_all]

theorem Sorted.path {name : String} (hname : Sorted name) (x : Setting) :
    name = x.name ∧ Text.splitOn '.' name = x.path ∨
      name ≠ x.name ∧ Apart (Text.splitOn '.' name) x.path := by
  rcases hname with ⟨y, rfl⟩ | hapart
  · rw [y.splitOn_name]
    rcases y.eq_or_apart x with rfl | hapart
    · exact .inl ⟨rfl, rfl⟩
    · refine .inr ⟨fun hname => ?_, hapart⟩
      rw [← y.splitOn_name, hname, x.splitOn_name] at hapart
      exact apart_irrefl _ hapart
  · refine .inr ⟨fun hname => ?_, hapart x⟩
    have hx := hapart x
    rw [hname, x.splitOn_name] at hx
    exact apart_irrefl _ hx

/-! Values that are set one after the other. -/

/-- A layer has for a setting what it was set to last. -/
structure Holds (assigned : List (String × Raw)) (x : Setting) (l : Layer) : Prop where
  orderly : Orderly x.path (.table l)
  clean : Clean x.path (.table l)
  value : at? x.path (.table l) = assigned.reverse.lookup x.name

theorem holds_nil (x : Setting) : Holds [] x [] := by
  have hpath : ∃ name rest, x.path = name :: rest := by cases x <;> exact ⟨_, _, rfl⟩
  obtain ⟨name, rest, hpath⟩ := hpath
  constructor
  · rw [hpath]
    exact ⟨[], rfl, List.nodup_nil, nofun⟩
  · rw [hpath]
    rintro _ ⟨⟩
    exact nofun
  · rw [hpath]
    rfl

theorem Holds.set {assigned : List (String × Raw)} {x : Setting} {l : Layer}
    (hl : Holds assigned x l) {name : String} (hname : Sorted name) {v : Raw}
    (hleaf : v.isTable = false) : Holds (assigned ++ [(name, v)]) x (l.set name v) := by
  have hpath : Text.splitOn '.' name = x.path ∨ Apart (Text.splitOn '.' name) x.path :=
    (hname.path x).imp And.right And.right
  have hparts : Text.splitOn '.' name ≠ [] := by
    intro hnil
    rw [hnil] at hpath
    cases x <;> exact hpath.elim nofun False.elim
  obtain ⟨horderly, hat⟩ := @Layer.at?_combine_nest v hleaf _ _ hpath (some (.table l))
    fun u hu => Option.some.inj hu ▸ hl.orderly
  rw [← Layer.set_eq_combine hparts] at horderly hat
  refine ⟨horderly, ?_, ?_⟩
  · rw [Layer.set_eq_combine hparts]
    exact Layer.clean_combine (fun u hu => Option.some.inj hu ▸ hl.clean) (Layer.clean_nest hpath v)
  · rw [hat, List.reverse_append, List.reverse_singleton, List.singleton_append,
      Layer.lookup_cons_eq_ite, Option.bind_some, hl.value]
    rcases hname.path x with ⟨heq, hsplit⟩ | ⟨hne, hapart⟩
    · rw [if_pos hsplit, if_pos heq.symm]
    · rw [if_neg (Ne.symm hne), if_neg]
      intro hsplit
      rw [hsplit] at hapart
      exact apart_irrefl _ hapart

def setAll (assigned : List (String × Raw)) : Layer :=
  assigned.foldl (fun (l : Layer) a => l.set a.1 a.2) []

theorem holds_setAll {assigned : List (String × Raw)} (hnames : ∀ a ∈ assigned, Sorted a.1)
    (hleaves : ∀ a ∈ assigned, a.2.isTable = false) (x : Setting) :
    Holds assigned x (setAll assigned) := by
  induction assigned using List.reverseRecOn with
  | nil => exact holds_nil x
  | append_singleton before a ih =>
      rw [setAll, List.foldl_append]
      exact (ih (fun b hb => hnames b (List.mem_append_left _ hb))
        fun b hb => hleaves b (List.mem_append_left _ hb)).set (hnames a (by simp))
          (hleaves a (by simp))

/-! The four sources. -/

/-- The settings that variables of the environment assign, in their order. -/
def assignedByVariables (environment : List (String × String)) : List (String × Raw) :=
  environment.filterMap fun entry =>
    (variableName? entry.1).map fun name => (name, .text entry.2)

/-- The settings that options of the command line assign, in their order. -/
def assignedByOptions (options : List (String × Raw)) : List (String × Raw) :=
  options.map fun entry => (optionName entry.1, entry.2)

theorem environmentLayer_eq (environment : List (String × String)) :
    environmentLayer environment =
      setAll (assignedByVariables environment) := by
  rw [environmentLayer, setAll, assignedByVariables, List.foldl_filterMap]
  congr 1
  funext l entry
  cases hname : variableName? entry.1 <;> simp [hname]

theorem optionLayer_eq (options : List (String × Raw)) :
    optionLayer options = setAll (assignedByOptions options) := by
  rw [optionLayer, setAll, assignedByOptions, List.foldl_map]

/-- A layer with values in the places of settings, tables around them, and beside these nothing
that is called like a setting but for case. -/
structure OnlySettings (l : Layer) : Prop where
  fits (x : Setting) : Fits x.path (.table l)
  clean (x : Setting) : Clean x.path (.table l)

/-- An entry that sets a setting, or a table of entries that do. -/
inductive SetsSettings : String × Raw → Prop where
  | top (x : Setting) {name : String} {v : Raw} (hpath : x.path = [name])
      (hleaf : v.isTable = false) : SetsSettings (name, v)
  | server {inner : Layer}
      (hinner : ∀ entry ∈ inner, entry.2.isTable = false ∧
        ∃ x : Setting, x.path = ["server", entry.1]) : SetsSettings ("server", .table inner)

namespace Setting

/-- Settings that are in one place are not told apart by case. -/
theorem eq_of_lower (front : List String) {x y : Setting} {name other : String}
    (hx : x.path = front ++ [name]) (hy : y.path = front ++ [other])
    (hlower : Text.lower other = Text.lower name) : other = name := by
  rcases y.eq_or_apart x with rfl | hapart
  · have hpaths := hy.symm.trans hx
    simpa using hpaths
  · rw [hx, hy, apart_append] at hapart
    exact absurd hlower (hapart.resolve_right fun h => h.2)

/-- No setting is called like the table of other settings. -/
theorem lower_server_ne {x : Setting} {name : String} (hpath : x.path = [name]) :
    Text.lower "server" ≠ Text.lower name := by
  rcases Setting.address.eq_or_apart x with rfl | hapart
  · cases hpath
  · rw [hpath] at hapart
    exact hapart.resolve_right fun h => h.2

theorem path_eq (x : Setting) : ∃ name, x.path = [name] ∨ x.path = ["server", name] := by
  cases x with
  | address | shutdownTimeout | maxBodyBytes => exact ⟨_, .inr rfl⟩
  | _ => exact ⟨_, .inl rfl⟩

end Setting

section Entries

variable {l : Layer}

theorem fits_of_forall (hl : ∀ entry ∈ l, SetsSettings entry) (x : Setting) :
    Fits x.path (.table l) := by
  obtain ⟨name, hpath | hpath⟩ := x.path_eq
  · rw [hpath]
    refine ⟨l, rfl, fun w hw => ?_⟩
    cases hl _ hw with
    | top _ _ hleaf => exact hleaf
    | server => exact absurd rfl (Setting.lower_server_ne hpath)
  · rw [hpath]
    refine ⟨l, rfl, fun w hw => ?_⟩
    cases hl _ hw with
    | top _ hserver => exact absurd rfl (Setting.lower_server_ne hserver)
    | server hinner => exact ⟨_, rfl, fun v hv => (hinner _ hv).1⟩

theorem clean_of_forall (hl : ∀ entry ∈ l, SetsSettings entry) (x : Setting) :
    Clean x.path (.table l) := by
  obtain ⟨name, hpath | hpath⟩ := x.path_eq
  · rw [hpath]
    rintro _ ⟨⟩ other w hw hlower
    cases hl _ hw with
    | top _ hother => exact ⟨Setting.eq_of_lower [] hpath hother hlower, trivial⟩
    | server => exact absurd hlower (Setting.lower_server_ne hpath)
  · rw [hpath]
    rintro _ ⟨⟩ other w hw hlower
    cases hl _ hw with
    | top _ hother => exact absurd hlower.symm (Setting.lower_server_ne hother)
    | server hinner =>
        refine ⟨rfl, ?_⟩
        rintro _ ⟨⟩ inner v hv hlower
        obtain ⟨-, y, hy⟩ := hinner _ hv
        exact ⟨Setting.eq_of_lower ["server"] hpath hy hlower, trivial⟩

/-- A layer that sets settings and nothing else is of settings only. -/
theorem onlySettings_of_forall (hl : ∀ entry ∈ l, SetsSettings entry) : OnlySettings l :=
  ⟨fits_of_forall hl, clean_of_forall hl⟩

end Entries

/-- What stands in the place of a setting in the lowest layer. -/
def Setting.standard? (x : Setting) : Option Raw := at? x.path (.table baseLayer)

/-- What the highest source that sets a setting has for it. -/
def Setting.raw? (x : Setting) (fromFile : Layer) (environment : List (String × String))
    (options : List (String × Raw)) : Option Raw :=
  ((assignedByOptions options).reverse.lookup x.name).or <|
    ((assignedByVariables environment).reverse.lookup x.name).or <|
      (last? x.path (.table fromFile)).or x.standard?

theorem opened_baseLayer (x : Setting) : Opened x.path (.table baseLayer) := by
  cases x with
  | address | shutdownTimeout | maxBodyBytes =>
      exact ⟨_, rfl, fun _ => ⟨_, rfl, _, rfl, fun h => absurd rfl h⟩⟩
  | _ => exact ⟨_, rfl, fun h => absurd rfl h⟩

theorem setsSettings_baseLayer : ∀ entry ∈ baseLayer, SetsSettings entry := by
  simp only [baseLayer, List.forall_mem_cons]
  exact ⟨.top .dialect rfl rfl, .top .strict rfl rfl, .top .reconcile rfl rfl, .top .affix rfl rfl,
    .top .emit rfl rfl, .top .output rfl rfl, .top .logLevel rfl rfl, .server (by
      simp only [List.forall_mem_cons]
      exact ⟨⟨rfl, .address, rfl⟩, ⟨rfl, .shutdownTimeout, rfl⟩, ⟨rfl, .maxBodyBytes, rfl⟩,
        nofun⟩), nofun⟩

theorem at?_overlay {p : List String} {base top : Layer} (hbase : Opened p (.table base))
    (htop : Fits p (.table top)) :
    Opened p (.table (base.overlay top)) ∧
      at? p (.table (base.overlay top)) =
        (last? p (.table top)).or (at? p (.table base)) := by
  rw [← Layer.combine_table]
  exact Layer.laysOver p _ _ hbase htop

theorem clean_overlay {p : List String} {base top : Layer} (hbase : Clean p (.table base))
    (htop : Clean p (.table top)) : Clean p (.table (base.overlay top)) := by
  rw [← Layer.combine_table]
  exact Layer.clean_combine (fun u hu => Option.some.inj hu ▸ hbase) htop

/-- All sources, each over the ones before. -/
def merged (fromFile : Layer) (environment : List (String × String))
    (options : List (String × Raw)) : Layer :=
  ((baseLayer.overlay fromFile).overlay (environmentLayer environment)).overlay
    (optionLayer options)

section Merged

variable {fromFile : Layer} {environment : List (String × String)} {options : List (String × Raw)}

theorem holds_environmentLayer
    (hnames : ∀ a ∈ assignedByVariables environment, Sorted a.1) (x : Setting) :
    Holds (assignedByVariables environment) x (environmentLayer environment) := by
  rw [environmentLayer_eq]
  refine holds_setAll hnames (fun a ha => ?_) x
  obtain ⟨entry, -, ha⟩ := List.mem_filterMap.mp ha
  obtain ⟨name, -, rfl⟩ := Option.map_eq_some_iff.mp ha
  rfl

theorem holds_optionLayer (hnames : ∀ a ∈ assignedByOptions options, Sorted a.1)
    (hleaves : ∀ a ∈ options, a.2.isTable = false) (x : Setting) :
    Holds (assignedByOptions options) x (optionLayer options) := by
  rw [optionLayer_eq]
  exact holds_setAll hnames (List.forall_mem_map.mpr hleaves) x

/-- In the layer of all sources stands what the highest source has. -/
theorem at?_merged (hfile : OnlySettings fromFile)
    (hvariables : ∀ a ∈ assignedByVariables environment, Sorted a.1)
    (hoptions : ∀ a ∈ assignedByOptions options, Sorted a.1)
    (hleaves : ∀ a ∈ options, a.2.isTable = false) (x : Setting) :
    Clean x.path (.table (merged fromFile environment options)) ∧
      Opened x.path (.table (merged fromFile environment options)) ∧
      at? x.path (.table (merged fromFile environment options)) =
        x.raw? fromFile environment options := by
  have henvironment := holds_environmentLayer hvariables x
  have hoption := holds_optionLayer hoptions hleaves x
  obtain ⟨hopened, hat⟩ := at?_overlay (opened_baseLayer x) (hfile.fits x)
  obtain ⟨hopened', hat'⟩ := at?_overlay hopened henvironment.orderly.fits
  obtain ⟨hopened'', hat''⟩ := at?_overlay hopened' hoption.orderly.fits
  refine ⟨?_, hopened'', ?_⟩
  · have hbase := clean_overlay (clean_of_forall setsSettings_baseLayer x) (hfile.clean x)
    exact clean_overlay (clean_overlay hbase henvironment.clean) hoption.clean
  · rw [merged, hat'', hat', hat, hoption.orderly.last?_eq, hoption.value,
      henvironment.orderly.last?_eq, henvironment.value, Setting.raw?, Setting.standard?]

end Merged

/-! Loading. -/

/-- The file that settings are read from. -/
def sourceFile (d : Disk) (file : String) : Option String :=
  if file = "" then findFile d searchLevels d.current else some file

def fileLayer (d : Disk) (file : String) : Except LoadError Layer :=
  match sourceFile d file with
  | some path => readFile d path
  | none => .ok []

theorem load_eq {d : Disk} {file : String} {fromFile : Layer}
    (hfile : fileLayer d file = .ok fromFile) (environment : List (String × String))
    (options : List (String × Raw)) (c : Reserved.Catalogue) :
    load d environment file options c =
      match decode (merged fromFile environment options) c with
      | .error reasons => .error (.decode reasons)
      | .ok settings =>
        match settings.validate c with
        | .error cause => .error (.invalid cause)
        | .ok _ => .ok ⟨settings, sourceFile d file⟩ := by
  rw [fileLayer] at hfile
  unfold load
  cases hpath : sourceFile d file with
  | none =>
      rw [hpath] at hfile
      cases hfile
      rw [sourceFile] at hpath
      simp only [hpath]
      rfl
  | some path =>
      rw [hpath] at hfile
      rw [sourceFile] at hpath
      simp only [hpath, hfile]
      rfl

theorem load_eq_ok_iff {d : Disk} {file : String} {fromFile : Layer}
    (hfile : fileLayer d file = .ok fromFile) {environment : List (String × String)}
    {options : List (String × Raw)} {c : Reserved.Catalogue} {loaded : Loaded} :
    load d environment file options c = .ok loaded ↔
      loaded.file = sourceFile d file ∧ loaded.settings.validate c = .ok () ∧
        decode (merged fromFile environment options) c = .ok loaded.settings := by
  obtain ⟨settings, path⟩ := loaded
  rw [load_eq hfile]
  cases decode (merged fromFile environment options) c with
  | error reasons => simp
  | ok s =>
      dsimp only
      cases hvalid : s.validate c with
      | error cause =>
          refine iff_of_false nofun ?_
          rintro ⟨-, hok, ⟨⟩⟩
          rw [hvalid] at hok
          cases hok
      | ok _ =>
          constructor
          · rintro ⟨⟩
            exact ⟨rfl, hvalid, rfl⟩
          · rintro ⟨rfl, -, ⟨⟩⟩
            rfl

theorem read_dialect_text (text : String) (c : Reserved.Catalogue) :
    Setting.dialect.read (some (.text text)) c =
      (c.parseDialect text).mapError Reserved.UnknownDialect.message := by
  have hread : Setting.dialect.read (some (.text text)) c = Raw.toDialect c (.text text) := rfl
  rw [hread, Raw.toDialect]
  cases c.parseDialect text <;> rfl

theorem parseDialect_of_read {text : String} {c : Reserved.Catalogue} {d : Dialect}
    (hread : Setting.dialect.read (some (.text text)) c = .ok d) :
    c.parseDialect text = .ok d := by
  rw [read_dialect_text] at hread
  cases hparse : c.parseDialect text with
  | ok other =>
      rw [hparse] at hread
      cases hread
      rfl
  | error e =>
      rw [hparse] at hread
      cases hread

theorem read_shutdownTimeout_text (text : String) :
    Setting.shutdownTimeout.read (some (.text text)) = Raw.toDuration (.text text) := rfl

/-- The standard settings are what the lowest layer is decoded to. -/
theorem read_standard? (x : Setting) : x.read x.standard? = .ok (x.get standard) := by
  cases x with
  | dialect =>
      have hraw : Setting.dialect.standard? = some (.text standard.dialect.shortName) := rfl
      have hparse : (Reserved.Catalogue.builtin.parseDialect standard.dialect.shortName).mapError
          Reserved.UnknownDialect.message = .ok standard.dialect := by decide +kernel
      rw [hraw, read_dialect_text]
      exact hparse
  | shutdownTimeout =>
      have hraw : Setting.shutdownTimeout.standard? =
          some (.text standard.server.shutdownTimeout.text) := rfl
      have hparse : Raw.toDuration (.text standard.server.shutdownTimeout.text) =
          .ok standard.server.shutdownTimeout := by decide +kernel
      rw [hraw, read_shutdownTimeout_text]
      exact hparse
  | _ => rfl

/-! Options that are given on the command line. -/

open Cli (Arguments Command)

def optionNames : List String :=
  ["config", "dialect", "log-level", "output", "reconcile", "reconcile-affix", "reconcile-expr",
    "strict", "verbose", "minify", "verify", "evaluate", "emit", "concurrency", "watch", "addr",
    "help", "version"]

theorem name_mem_optionNames (c : Command) :
    ∀ f ∈ Command.flags .root c, f.name ∈ optionNames := by
  match c with
  | .root | .compile | .completion | .help | .reserved | .serve | .version | .complete true
  | .complete false => decide

theorem sorted_optionName {name : String} (hname : name ∈ optionNames) :
    Sorted (optionName name) := by
  have hall : ∀ name ∈ optionNames,
      (∃ x ∈ Setting.all, optionName name = x.name) ∨
        ∀ x ∈ Setting.all, Apart (Text.splitOn '.' (optionName name)) x.path := by
    decide +kernel
  exact sorted_iff.mpr (hall name hname)

section Given

variable {c : Command} {arguments : List String} {a : Arguments}

theorem sorted_of_parse (hparse : Arguments.parse (Command.flags .root c) arguments = .ok a) :
    ∀ entry ∈ assignedByOptions a.given, Sorted entry.1 := by
  rw [assignedByOptions, List.forall_mem_map]
  intro g hg
  obtain ⟨f, hf, value, hread⟩ := (Arguments.gives_of_parse hparse).sound g hg
  rw [(Cli.read_eq_ok hread).1]
  exact sorted_optionName (name_mem_optionNames c f hf.mem)

theorem isTable_of_parse (hparse : Arguments.parse (Command.flags .root c) arguments = .ok a) :
    ∀ g ∈ a.given, g.2.isTable = false := by
  intro g hg
  obtain ⟨f, -, value, hread⟩ := (Arguments.gives_of_parse hparse).sound g hg
  exact (Cli.read_eq_ok hread).2

/-- The options that are named on the command line set something, and no others. -/
theorem lookup_eq_none_iff_of_parse
    (hparse : Arguments.parse (Command.flags .root c) arguments = .ok a) (x : Setting) :
    (assignedByOptions a.given).reverse.lookup x.name = none ↔
      ∀ f ∈ Command.flags .root c, optionName f.name = x.name →
        ¬ Arguments.Names (Command.flags .root c) f arguments := by
  have hgives := Arguments.gives_of_parse hparse
  simp only [List.lookup_eq_none_iff, List.mem_reverse, assignedByOptions, List.forall_mem_map,
    bne_iff_ne]
  constructor
  · intro hnone f _ hname hnames
    obtain ⟨g, hg, value, hread⟩ := hgives.complete f hnames
    apply hnone g hg
    rw [(Cli.read_eq_ok hread).1, hname]
  · intro hnone g hg hname
    obtain ⟨f, hf, value, hread⟩ := hgives.sound g hg
    rw [(Cli.read_eq_ok hread).1] at hname
    exact hnone f hf.mem hname.symm hf

end Given

def layeredText : String := "dialect: es3\noutput: text\nconcurrency: 2\n"

def layeredDisk : Disk :=
  ⟨"/work", [("/", .directory), ("/work", .directory),
    ("/work/triptjs.yaml", .file (Text.toBytes layeredText))]⟩

def layeredEnvironment : List (String × String) :=
  [("TRIPTJS_DIALECT", "es5"), ("TRIPTJS_OUTPUT", "json"), ("TRIPTJS_SERVER__ADDR", ":7000")]

def layeredSettings : Settings :=
  { standard with
    dialect := ⟨6⟩, output := "json", concurrency := 2,
    server := { standard.server with address := ":7000" } }

end ScriptTree.Settings
