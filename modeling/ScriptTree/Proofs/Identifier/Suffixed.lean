import ScriptTree.Proofs.Identifier.Prefixed
import ScriptTree.Settings

/-!
Names that are replaced by putting a mark behind. A few reserved words begin with another
one, and a mark that is the rest of such a word turns the shorter one into it: `stanceof`
behind `in` makes `instanceof`. A replaced name is reserved in these cases only.
-/

namespace ScriptTree

namespace Identifier

open Reserved (Catalogue Edition)

/-! Words of one edition that begin with another one. -/

/-- The reserved words that begin with another one, as that one and the rest. -/
def completions (d : Dialect) (strict : Bool) : List (String × String) :=
  if d = .es3 then
    [("in", "stanceof"), ("in", "t"), ("in", "terface"), ("int", "erface"), ("do", "uble"),
      ("final", "ly"), ("throw", "s")]
  else if strict then [("in", "stanceof"), ("in", "terface")]
  else [("in", "stanceof")]

/-- A word that begins with another one leaves a rest behind it that the table has. -/
theorem eq_or_mem_completions : ∀ e ∈ Catalogue.builtin.shelf,
    ∀ word ∈ e.words ++ e.strictWords, ∀ long ∈ e.words ++ e.strictWords,
      word.toList <+: long.toList → word = long ∨
        (word, String.ofList (long.toList.drop word.length)) ∈ completions e.dialect true := by
  decide +kernel

/-- Two words that are reserved in every mode complete one another in every mode. -/
theorem mem_completions_sloppy : ∀ e ∈ Catalogue.builtin.shelf,
    ∀ pair ∈ completions e.dialect true,
      e.reserves pair.1 false = true → e.reserves (pair.1 ++ pair.2) false = true →
        pair ∈ completions e.dialect false := by
  decide +kernel

theorem reserves_of_mem_completions : ∀ e ∈ Catalogue.builtin.shelf,
    ∀ strict, ∀ pair ∈ completions e.dialect strict,
      e.reserves pair.1 strict = true ∧ e.reserves (pair.1 ++ pair.2) strict = true := by
  decide +kernel

variable {e : Edition} {d : Dialect} {word affix : String} {strict : Bool}

theorem reserves_append_iff (he : e ∈ Catalogue.builtin.shelf) (haffix : affix ≠ "") :
    e.reserves word strict = true ∧ e.reserves (word ++ affix) strict = true ↔
      (word, affix) ∈ completions e.dialect strict := by
  constructor
  · rintro ⟨hword, hlong⟩
    have hprefix : word.toList <+: (word ++ affix).toList := by simp
    -- Strict mode has all the words, so the pair is looked up there first.
    have hstrict : (word, affix) ∈ completions e.dialect true := by
      rcases eq_or_mem_completions e he word (mem_words_of_reserves hword) (word ++ affix)
        (mem_words_of_reserves hlong) hprefix with heq | hmem
      · exact absurd (String.append_eq_left_iff.mp heq.symm) haffix
      · rwa [String.toList_append, List.drop_left' String.length_toList,
          String.ofList_toList] at hmem
    cases strict with
    | true => exact hstrict
    | false => exact mem_completions_sloppy e he (word, affix) hstrict hword hlong
  · intro hmem
    exact reserves_of_mem_completions e he strict (word, affix) hmem

/-! Names. -/

theorem dialect_of_get?_builtin (hedition : Catalogue.builtin.get? d = some e) :
    e.dialect = d := by
  have hplaces : ∀ entry ∈ Catalogue.builtin.byDialect, ∀ e ∈ Catalogue.builtin.shelf[entry.2]?,
      e.dialect = entry.1 := by
    decide
  obtain ⟨place, hplace, hshelf⟩ := Option.bind_eq_some_iff.mp hedition
  obtain ⟨before, after, hindex, -⟩ := List.lookup_eq_some_iff.mp hplace
  exact hplaces (d, place) (by simp [hindex]) e hshelf

theorem Table.reserves_toBytes (word : String) (d : Dialect) (strict : Bool) :
    standard.reserves (Text.toBytes word) d strict = Catalogue.builtin.reserves word d strict := by
  have htext : ByteString.text? (Text.toBytes word) = some word := by
    rw [ByteString.text?, Text.toBytes, Text.ofBytes?_ofChars, String.ofList_toList]
  rw [reserves_standard, htext, Option.any_some]

namespace Options

variable {ids : Options}

/-- With a mark behind reserved words, a reserved word is emitted only as the completion
of another one. -/
theorem reserves_sanitize_after_iff (haffix : affix ≠ "")
    (hreconcile : ids.reconcile.getD .underscore = .after affix)
    (htable : ids.table.getD .standard = .standard)
    (hdialect : (Catalogue.builtin.get? ids.dialect.resolve).isSome) (name : ByteString) :
    Table.standard.reserves (ids.sanitize name) ids.dialect ids.strict = true ↔
      ∃ word, name = Text.toBytes word ∧
        (word, affix) ∈ completions ids.dialect.resolve ids.strict := by
  obtain ⟨e, hedition⟩ := Option.isSome_iff_exists.mp hdialect
  have he := mem_shelf_of_get? hedition
  have hresolved := dialect_of_get?_builtin hedition
  have hwords : ∀ word, Table.standard.reserves (Text.toBytes word) ids.dialect ids.strict =
      e.reserves word ids.strict := by
    intro word
    rw [Table.reserves_toBytes, Catalogue.reserves, hedition]
  rw [sanitize, hreconcile, reserves_of_table htable, ← hresolved]
  constructor
  · intro hemitted
    cases hname : Table.standard.reserves name ids.dialect ids.strict with
    | false => simp [hname] at hemitted
    | true =>
        obtain ⟨word, rfl, -⟩ := Table.exists_word_of_reserves hname
        rw [if_pos hname, Reconciler.apply, ← Text.toBytes_append, hwords] at hemitted
        rw [hwords] at hname
        exact ⟨word, rfl, (reserves_append_iff he haffix).mp ⟨hname, hemitted⟩⟩
  · rintro ⟨word, rfl, hmem⟩
    obtain ⟨hword, hlong⟩ := (reserves_append_iff he haffix).mpr hmem
    rw [hwords, if_pos hword, Reconciler.apply, ← Text.toBytes_append, hwords]
    exact hlong

end Options

end Identifier

namespace Settings

open Identifier (Table completions)
open Reserved (Catalogue)

variable {s : Settings}

theorem isSome_get?_of_validate (hvalid : s.validate = .ok ()) :
    (Catalogue.builtin.get? s.dialect.resolve).isSome := by
  cases hedition : Catalogue.builtin.get? s.dialect.resolve with
  | some e => rfl
  | none =>
      rw [validate, hedition] at hvalid
      cases hvalid

/-- The options under which reserved words get the affix of the settings behind them. -/
def suffixing (s : Settings) : Identifier.Options :=
  ⟨some (.after s.affix), s.dialect.resolve, s.strict, some .standard⟩

theorem identifiers_of_suffix (hreconcile : s.reconcile = "suffix") (haffix : s.affix ≠ "") :
    s.identifiers = .ok s.suffixing := by
  simp only [identifiers, reconciler, hreconcile, if_neg haffix]
  rfl

theorem reserves_suffixing_iff (haffix : s.affix ≠ "") (hvalid : s.validate = .ok ())
    (name : ByteString) :
    Table.standard.reserves (s.suffixing.sanitize name) s.dialect s.strict = true ↔
      ∃ word, name = Text.toBytes word ∧
        (word, s.affix) ∈ completions s.dialect.resolve s.strict := by
  have hresolve : s.suffixing.dialect.resolve = s.dialect.resolve :=
    Identifier.resolve_resolve s.dialect
  have hdialect : (Catalogue.builtin.get? s.suffixing.dialect.resolve).isSome := by
    rw [hresolve]
    exact isSome_get?_of_validate hvalid
  have hemitted :=
    Identifier.Options.reserves_sanitize_after_iff haffix rfl rfl hdialect name
  rwa [hresolve, suffixing, Table.reserves_resolve] at hemitted

/-- Valid settings that put an affix behind reserved words give options that emit a reserved
word only where the affix completes a shorter one to it. No name is emitted as a reserved word
exactly where the affix completes none. -/
theorem reserves_suffixed_iff (s : Settings) (hreconcile : s.reconcile = "suffix")
    (haffix : s.affix ≠ "") (hvalid : s.validate = .ok ()) :
    ∃ ids, s.identifiers = .ok ids ∧
      (∀ name, Table.standard.reserves (ids.sanitize name) s.dialect s.strict = true ↔
        ∃ word, name = Text.toBytes word ∧
          (word, s.affix) ∈ completions s.dialect.resolve s.strict) ∧
      ((∀ name, Table.standard.reserves (ids.sanitize name) s.dialect s.strict = false) ↔
        s.affix ∉ (completions s.dialect.resolve s.strict).map Prod.snd) := by
  have hemitted := reserves_suffixing_iff haffix hvalid
  refine ⟨s.suffixing, identifiers_of_suffix hreconcile haffix, hemitted, ?_⟩
  simp only [← Bool.not_eq_true, hemitted, List.mem_map, Prod.exists, exists_eq_right]
  constructor
  · rintro hclear ⟨word, hmem⟩
    exact hclear (Text.toBytes word) ⟨word, rfl, hmem⟩
  · rintro hnone name ⟨word, -, hmem⟩
    exact hnone ⟨word, hmem⟩

/-- Behind `in`, the affix `stanceof` makes another reserved word. -/
def completing : Settings := { standard with reconcile := "suffix", affix := "stanceof" }

theorem reserves_suffixed_iff_completing :
    completing.reconcile = "suffix" ∧ completing.affix ≠ "" ∧ completing.validate = .ok () ∧
      ∃ ids, completing.identifiers = .ok ids ∧
        Table.standard.reserves (ids.sanitize (Text.toBytes "in")) completing.dialect
          completing.strict = true := by
  have haffix : completing.affix ≠ "" := by decide
  have hvalid : completing.validate = .ok () := by
    have hok : completing.validate.isOk = true := by decide +kernel
    cases hresult : completing.validate with
    | ok _ => rfl
    | error e => cases hresult ▸ hok
  obtain ⟨ids, hids, hemitted, -⟩ := reserves_suffixed_iff completing rfl haffix hvalid
  have hmem : ("in", completing.affix) ∈
      completions completing.dialect.resolve completing.strict := by
    decide
  exact ⟨rfl, haffix, hvalid, ids, hids, (hemitted _).mpr ⟨"in", rfl, hmem⟩⟩

end Settings

end ScriptTree
