import ScriptTree.Proofs.Identifier.Standard

/-!
Names that are replaced by putting a mark in front. No word of a built-in edition ends
in another word of it, so whatever the mark, a replaced name is no reserved word and is
not replaced again.
-/

namespace ScriptTree.Identifier

open Reserved (Catalogue Edition)

/-! The words of the built-in editions. -/

theorem resolve_resolve (d : Dialect) : d.resolve.resolve = d.resolve := by
  unfold Dialect.resolve
  by_cases hunset : d = .unset
  · simp only [if_pos hunset]
    decide
  · simp only [if_neg hunset]

theorem mem_words_of_reserves {e : Edition} {word : String} {strict : Bool}
    (hword : e.reserves word strict = true) : word ∈ e.words ++ e.strictWords := by
  rw [Edition.reserves, Bool.or_eq_true, Bool.and_eq_true] at hword
  rw [List.mem_append]
  rcases hword with hword | ⟨-, hword⟩
  · exact .inl (List.contains_iff_mem.mp hword)
  · exact .inr (List.contains_iff_mem.mp hword)

/-- No word of a built-in edition ends in another one. -/
theorem eq_of_toBytes_suffix : ∀ e ∈ Catalogue.builtin.shelf,
    ∀ word ∈ e.words ++ e.strictWords, ∀ ending ∈ e.words ++ e.strictWords,
      Text.toBytes ending <:+ Text.toBytes word → ending = word := by
  decide +kernel

theorem mem_shelf_of_get? {c : Catalogue} {d : Dialect} {e : Edition}
    (hedition : c.get? d = some e) : e ∈ c.shelf := by
  obtain ⟨place, -, hplace⟩ := Option.bind_eq_some_iff.mp hedition
  exact List.mem_of_getElem? hplace

/-- Every dialect is answered by one built-in edition, one without an edition of its own
by the newest. -/
theorem exists_edition_of_dialect (d : Dialect) :
    ∃ e ∈ Catalogue.builtin.shelf, ∀ word strict,
      Catalogue.builtin.reserves word d strict = e.reserves word strict := by
  cases hedition : Catalogue.builtin.get? d.resolve with
  | some e =>
      refine ⟨e, mem_shelf_of_get? hedition, fun word strict => ?_⟩
      rw [Catalogue.reserves, hedition]
  | none =>
      refine ⟨_, mem_shelf_of_get? get?_builtin_latest, fun word strict => ?_⟩
      rw [Catalogue.reserves, hedition, get?_builtin_latest]

theorem Table.exists_word_of_reserves {name : ByteString} {d : Dialect} {strict : Bool}
    (hname : standard.reserves name d strict = true) :
    ∃ word, name = Text.toBytes word ∧
      Catalogue.builtin.reserves word d strict = true := by
  rw [reserves_standard, Option.any_eq_true] at hname
  obtain ⟨word, htext, hword⟩ := hname
  exact ⟨word, (Text.toBytes_of_ofBytes? htext).symm, hword⟩

theorem Table.reserves_resolve (name : ByteString) (d : Dialect) (strict : Bool) :
    standard.reserves name d.resolve strict = standard.reserves name d strict := by
  simp only [reserves_standard, Catalogue.reserves, resolve_resolve]

/-- A reserved word behind a mark is not reserved. -/
theorem Table.reserves_append {mark name : ByteString} {d : Dialect} {strict : Bool}
    (hmark : mark ≠ []) (hname : standard.reserves name d strict = true) :
    standard.reserves (mark ++ name) d strict = false := by
  rw [Bool.eq_false_iff]
  intro hmarked
  obtain ⟨ending, rfl, hending⟩ := exists_word_of_reserves hname
  obtain ⟨word, hword, hreserved⟩ := exists_word_of_reserves hmarked
  obtain ⟨e, he, hedition⟩ := exists_edition_of_dialect d
  rw [hedition] at hending hreserved
  have hsuffix : Text.toBytes ending <:+ Text.toBytes word := ⟨mark, hword⟩
  obtain rfl := eq_of_toBytes_suffix e he word (mem_words_of_reserves hreserved) ending
    (mem_words_of_reserves hending) hsuffix
  exact hmark (List.append_left_eq_self.mp hword)

/-! Names as they are emitted. -/

namespace Options

variable {ids : Options} {mark : ByteString}

theorem reserves_of_table (htable : ids.table.getD .standard = .standard)
    (name : ByteString) :
    ids.reserves name = Table.standard.reserves name ids.dialect ids.strict := by
  rw [reserves, htable, Table.reserves_resolve]

/-- With a mark in front of reserved words, no emitted name is reserved. -/
theorem reserves_sanitize (hmark : mark ≠ [])
    (hreconcile : ids.reconcile.getD .underscore = .before mark)
    (htable : ids.table.getD .standard = .standard) (name : ByteString) :
    Table.standard.reserves (ids.sanitize name) ids.dialect ids.strict = false := by
  rw [sanitize, hreconcile, reserves_of_table htable]
  cases hname : Table.standard.reserves name ids.dialect ids.strict with
  | false => exact hname
  | true => exact Table.reserves_append hmark hname

theorem sanitize_sanitize (hmark : mark ≠ [])
    (hreconcile : ids.reconcile.getD .underscore = .before mark)
    (htable : ids.table.getD .standard = .standard) (name : ByteString) :
    ids.sanitize (ids.sanitize name) = ids.sanitize name := by
  have hreserves : ids.reserves (ids.sanitize name) = false := by
    rw [reserves_of_table htable]
    exact reserves_sanitize hmark hreconcile htable name
  generalize ids.sanitize name = emitted at hreserves ⊢
  simp [sanitize, hreserves]

end Options

end ScriptTree.Identifier
