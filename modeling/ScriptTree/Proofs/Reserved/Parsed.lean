import ScriptTree.Proofs.Reserved.History
import ScriptTree.Proofs.Settings.Precedence
import ScriptTree.Proofs.Text.Casing

/-!
Dialects that are read from text. Whatever editions have been registered, a dialect that is read
has an edition; its text may be written in capital or small letters and with white space around
it, and it is read unless no edition was ever registered under it.
-/

namespace ScriptTree.Reserved

theorem Edition.isNamed_lower (e : Edition) (name : String) :
    e.isNamed (Text.lower name) = e.isNamed name := by
  rw [isNamed, Text.lower_lower, isNamed]

theorem Edition.isNamed_eq_false_iff {e : Edition} {name : String} :
    e.isNamed name = false ↔ ∀ own ∈ e.name :: e.aliases, Text.lower own ≠ Text.lower name := by
  rw [isNamed, List.any_eq_false]
  simp only [beq_iff_eq, ne_eq]

namespace Catalogue

variable {c : Catalogue} {past : List Registration}

theorem lastNamed?_lower (name : String) (past : List Registration) :
    lastNamed? (Text.lower name) past = lastNamed? name past := by
  rw [lastNamed?, lastNamed?]
  simp only [Edition.isNamed_lower]

theorem lastNamed?_eq_none_iff {name : String} :
    lastNamed? name past = none ↔ ∀ r ∈ past, r.edition.isNamed name = false := by
  simp [lastNamed?]

theorem mem_of_lastNamed? {name : String} {r : Registration} (hr : lastNamed? name past = some r) :
    r ∈ past :=
  (List.mem_filter.mp (List.mem_of_getLast? hr)).1

/-- A text is read as the dialect of the edition that was last registered under it. -/
theorem Recorded.parseDialect_eq (hc : Recorded c past) (text : String) :
    (c.parseDialect text).toOption =
      if Text.trim text = "" then some .latest
      else (lastNamed? (Text.trim text) past).map (·.edition.dialect) := by
  rw [parseDialect]
  simp only [Text.lower_eq_empty_iff]
  split
  next => rfl
  next =>
    rw [hc.lookup?_eq, lastNamed?_lower]
    cases hlast : lastNamed? (Text.trim text) past with
    | none => rfl
    | some r =>
        obtain ⟨e, he, hbecomes⟩ := hc.standing r (mem_of_lastNamed? hlast)
        rw [Option.bind_some, he, Option.map_some, ← hbecomes.dialect]
        rfl

theorem parseDialect_alike {s t : String} (halike : Text.Alike s t) :
    (c.parseDialect s).toOption = (c.parseDialect t).toOption := by
  rw [parseDialect, parseDialect]
  rw [halike.lower_trim_eq]
  split
  next => rfl
  next => cases c.lookup? (Text.lower (Text.trim t)) <;> rfl

/-- A dialect for which an edition was registered has one, and so has the newest one. -/
theorem Recorded.exists_get?_resolve (hc : Recorded c past)
    (hlatest : ∃ r ∈ past, r.edition.dialect = .latest) {d : Dialect}
    (hd : ∃ r ∈ past, r.edition.dialect = d) :
    ∃ e, c.get? d.resolve = some e ∧ e.dialect = d.resolve := by
  obtain ⟨e, he⟩ : ∃ e, c.get? d.resolve = some e := by
    rw [Dialect.resolve]
    split
    · exact hc.exists_get? hlatest
    · exact hc.exists_get? hd
  refine ⟨e, he, ?_⟩
  obtain ⟨place, hplace, hshelf⟩ := Option.bind_eq_some_iff.mp he
  obtain ⟨e', he', hdialect⟩ := hc.dialect_of_placeFor? hplace
  rwa [Option.some.inj (hshelf.symm.trans he')]

theorem Recorded.exists_get?_of_parseDialect (hc : Recorded c past)
    (hlatest : ∃ r ∈ past, r.edition.dialect = .latest) {text : String} {d : Dialect}
    (hparse : c.parseDialect text = .ok d) :
    ∃ e, c.get? d.resolve = some e ∧ e.dialect = d.resolve := by
  apply hc.exists_get?_resolve hlatest
  have heq := hc.parseDialect_eq text
  rw [hparse] at heq
  split at heq
  -- A text that says nothing is read as the newest dialect.
  next =>
    cases heq
    exact hlatest
  next =>
    obtain ⟨r, hr, hdialect⟩ := Option.map_eq_some_iff.mp heq.symm
    exact ⟨r, mem_of_lastNamed? hr, hdialect⟩

theorem Recorded.parseDialect_fails_iff (hc : Recorded c past) (text : String) :
    (∃ error, c.parseDialect text = .error error) ↔
      Text.trim text ≠ "" ∧ ∀ r ∈ past, ∀ own ∈ r.edition.name :: r.edition.aliases,
        Text.lower own ≠ Text.lower (Text.trim text) := by
  have hnone : (∃ error, c.parseDialect text = .error error) ↔
      (c.parseDialect text).toOption = none := by
    cases c.parseDialect text with
    | ok d => simp [Except.toOption]
    | error error => simp [Except.toOption]
  rw [hnone, hc.parseDialect_eq]
  simp only [← Edition.isNamed_eq_false_iff, ← lastNamed?_eq_none_iff]
  split
  next hempty => simp [hempty]
  next hempty => simp [hempty]

end Catalogue

end ScriptTree.Reserved

/-! Checking settings. -/

namespace ScriptTree.Settings

/-- A check that does not complain about the dialect. -/
def Spares {α : Type} (check : Except SettingsError α) : Prop :=
  ∀ number known, check ≠ .error (.dialect number known)

theorem Spares.bind {α β : Type} {check : Except SettingsError α}
    {next : α → Except SettingsError β} (hcheck : Spares check) (hnext : ∀ a, Spares (next a)) :
    Spares (check >>= next) := by
  cases check with
  | ok a => exact hnext a
  | error error =>
      rintro number known ⟨⟩
      exact hcheck number known rfl

theorem spares_throw {α β : Type} {error : SettingsError} {next : α → Except SettingsError β}
    (herror : ∀ number known, error ≠ .dialect number known) :
    Spares ((throw error : Except SettingsError α) >>= next) := by
  rintro number known ⟨⟩
  exact herror number known rfl

theorem spares_readLevel (text : String) : Spares (readLevel text) := by
  intro number known
  rw [readLevel]
  split
  next => rintro ⟨⟩
  next => cases Log.Level.ofText text <;> rintro ⟨⟩

/-- Only the first of the checks complains about the dialect. -/
theorem spares_validate {s : Settings} {c : Reserved.Catalogue} {e : Reserved.Edition}
    (he : c.get? s.dialect.resolve = some e) : Spares (s.validate c) := by
  have hlast : Spares (do
      let _ ← readLevel s.logLevel
      if s.concurrency < 0 then throw (SettingsError.concurrency s.concurrency) else pure ()) := by
    refine (spares_readLevel _).bind fun _ => ?_
    split
    next => rintro _ _ ⟨⟩
    next => rintro _ _ ⟨⟩
  rw [validate, he]
  simp only [Option.isNone_some, Bool.false_eq_true, if_false]
  -- Whichever checks fail, what is left is a complaint of its own or the last two checks.
  repeat' first
    | with_reducible exact hlast
    | with_reducible exact spares_throw fun _ _ => SettingsError.noConfusion
    | split

end ScriptTree.Settings

namespace ScriptTree.Reserved.Catalogue

theorem exists_latest (events : List Event) :
    ∃ r ∈ builtinRegistrations ++ builtin.registrations events, r.edition.dialect = .latest :=
  ⟨⟨2, editionES6⟩, List.mem_append_left _ (by simp [builtinRegistrations]), rfl⟩

/-- Whatever is put on the shelf, revised and registered, a dialect that is read from a text has an
edition, and the edition is for that dialect; texts that differ only in the case of ASCII letters
and in white space around them are read alike; and the text that is not read is one that says
something and that no edition was ever registered under, nor under a name with the same lower-case
form. Settings whose dialect was given as a text therefore never fail the check of the dialect in
the same catalogue. -/
theorem parseDialect_of_run (events : List Event) :
    let c := builtin.run events
    let past := builtinRegistrations ++ builtin.registrations events
    (∀ text d, c.parseDialect text = .ok d →
      ∃ e, c.get? d.resolve = some e ∧ e.dialect = d.resolve) ∧
    (∀ s t, Text.Alike s t → (c.parseDialect s).toOption = (c.parseDialect t).toOption) ∧
    (∀ text, (∃ error, c.parseDialect text = .error error) ↔
      Text.trim text ≠ "" ∧ ∀ r ∈ past, ∀ own ∈ r.edition.name :: r.edition.aliases,
        Text.lower own ≠ Text.lower (Text.trim text)) ∧
    ∀ (l : Settings.Layer) text s, l.find? "dialect" = some (.text text) →
      Settings.decode l c = .ok s →
        ∀ number known, s.validate c ≠ .error (.dialect number known) := by
  intro c past
  have hc : Recorded c past := recorded_builtin.run events
  refine ⟨fun text d => hc.exists_get?_of_parseDialect (exists_latest events),
    fun s t => parseDialect_alike, hc.parseDialect_fails_iff, fun l text s hgiven hdecode => ?_⟩
  have hread := Settings.read_dialect_of_decode hdecode
  rw [hgiven] at hread
  obtain ⟨e, he, -⟩ := hc.exists_get?_of_parseDialect (exists_latest events)
    (Settings.parseDialect_of_read hread)
  exact Settings.spares_validate he

/-! The new edition for an old dialect is found by its name, also in a file of settings. -/

theorem parseDialect_of_run_replaced :
    let c := builtin.run replacing
    Text.Alike " MINE\n" "mine" ∧ c.parseDialect " MINE\n" = .ok .es5 ∧
      (∃ e, c.get? Dialect.es5.resolve = some e ∧ e.dialect = Dialect.es5.resolve) ∧
      (∃ error, c.parseDialect "es5 2009" = .error error) ∧
      ∃ s, Settings.decode [("dialect", .text " Mine")] c = .ok s ∧ s.dialect = .es5 ∧
        ∀ number known, s.validate c ≠ .error (.dialect number known) := by
  intro c
  obtain ⟨husable, halike, hfails, hchecked⟩ := parseDialect_of_run replacing
  have hpadded : Text.Alike " MINE\n" "mine" :=
    ⟨"MINE".toList, "mine".toList,
      ⟨[' '], ['\n'], List.forall_mem_singleton.mpr (by decide),
        List.forall_mem_singleton.mpr (by decide), rfl⟩,
      ⟨[], [], List.forall_mem_nil _, List.forall_mem_nil _, rfl⟩, by decide⟩
  have hmine : (c.parseDialect "mine").toOption = some .es5 := by decide +kernel
  have hread : c.parseDialect " MINE\n" = .ok .es5 := by
    rw [← halike _ _ hpadded] at hmine
    cases hparse : c.parseDialect " MINE\n" with
    | ok d =>
        rw [hparse] at hmine
        exact congrArg Except.ok (Option.some.inj hmine)
    | error error =>
        rw [hparse] at hmine
        cases hmine
  obtain ⟨s, hdecode⟩ : ∃ s, Settings.decode [("dialect", .text " Mine")] c = .ok s := by
    have hok : (Settings.decode [("dialect", .text " Mine")] c).isOk = true := by decide +kernel
    cases hdecode : Settings.decode [("dialect", .text " Mine")] c with
    | ok s => exact ⟨s, rfl⟩
    | error error =>
        rw [hdecode] at hok
        cases hok
  have hdialect : s.dialect = .es5 := by
    have hall : ((Settings.decode [("dialect", .text " Mine")] c).toOption.map (·.dialect)) =
        some .es5 := by decide +kernel
    rw [hdecode] at hall
    exact Option.some.inj hall
  have hgiven : Settings.Layer.find? [("dialect", .text " Mine")] "dialect" =
      some (.text " Mine") := by
    simp [Settings.Layer.find?]
  have hunknown : ∃ error, c.parseDialect "es5 2009" = .error error :=
    (hfails _).mpr (by decide +kernel)
  exact ⟨hpadded, hread, husable _ _ hread, hunknown, s, hdecode, hdialect,
    hchecked _ _ _ hgiven hdecode⟩

end ScriptTree.Reserved.Catalogue
