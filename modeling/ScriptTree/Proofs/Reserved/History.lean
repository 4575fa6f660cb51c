import ScriptTree.Reserved.History

/-!
The catalogue after a run. Whatever is put on the shelf, revised and registered, every answer is
that of the last registration that it asks for, and the list holds one edition for each dialect in
their order. A name keeps leading to the edition that was last registered under it, also when its
dialect has got another edition since.
-/

namespace ScriptTree.Reserved

/-! Indexes. -/

section Index

variable {κ ν : Type} [DecidableEq κ] [BEq κ] [LawfulBEq κ]

theorem lookup_assign (key other : κ) (value : ν) (entries : List (κ × ν)) :
    (assign key value entries).lookup other =
      if other = key then some value else entries.lookup other := by
  induction entries with
  | nil =>
      by_cases hother : other = key
      · simp [assign, hother]
      · simp [assign, List.lookup_cons, hother, beq_false_of_ne hother]
  | cons entry rest ih =>
      obtain ⟨k, v⟩ := entry
      by_cases hk : k = key
      · subst hk
        by_cases hother : other = k
        · simp [assign, hother]
        · simp [assign, List.lookup_cons, hother, beq_false_of_ne hother]
      · rw [assign, if_neg hk, List.lookup_cons, List.lookup_cons, ih]
        by_cases hother : other = k
        · subst hother
          simp [hk]
        · simp [beq_false_of_ne hother]

theorem lookup_foldl_assign (keys : List κ) (other : κ) (value : ν) (entries : List (κ × ν)) :
    (keys.foldl (fun index key => assign key value index) entries).lookup other =
      if other ∈ keys then some value else entries.lookup other := by
  induction keys generalizing entries with
  | nil => simp
  | cons key keys ih =>
      rw [List.foldl_cons, ih, lookup_assign]
      by_cases hkeys : other ∈ keys
      · simp [hkeys]
      · simp [hkeys]

omit [BEq κ] [LawfulBEq κ] in
theorem mem_map_fst_assign (key other : κ) (value : ν) (entries : List (κ × ν)) :
    other ∈ (assign key value entries).map Prod.fst ↔
      other = key ∨ other ∈ entries.map Prod.fst := by
  induction entries with
  | nil => simp [assign]
  | cons entry rest ih =>
      obtain ⟨k, v⟩ := entry
      by_cases hk : k = key
      · simp [assign, hk]
      · rw [assign, if_neg hk, List.map_cons, List.map_cons, List.mem_cons, List.mem_cons, ih]
        exact or_left_comm

omit [BEq κ] [LawfulBEq κ] in
theorem nodup_assign {entries : List (κ × ν)} (hentries : (entries.map Prod.fst).Nodup)
    (key : κ) (value : ν) : ((assign key value entries).map Prod.fst).Nodup := by
  induction entries with
  | nil => simp [assign]
  | cons entry rest ih =>
      obtain ⟨k, v⟩ := entry
      rw [List.map_cons, List.nodup_cons] at hentries
      by_cases hk : k = key
      · subst hk
        rw [assign, if_pos rfl, List.map_cons, List.nodup_cons]
        exact hentries
      · rw [assign, if_neg hk, List.map_cons, List.nodup_cons, mem_map_fst_assign, not_or]
        exact ⟨⟨hk, hentries.1⟩, ih hentries.2⟩

theorem lookup_eq_some_iff_mem {entries : List (κ × ν)}
    (hentries : (entries.map Prod.fst).Nodup) {key : κ} {value : ν} :
    entries.lookup key = some value ↔ (key, value) ∈ entries := by
  induction entries with
  | nil => simp
  | cons entry rest ih =>
      obtain ⟨k, v⟩ := entry
      rw [List.map_cons, List.nodup_cons] at hentries
      rw [List.lookup_cons, List.mem_cons, Prod.mk.injEq]
      by_cases hk : key = k
      · subst hk
        have hrest : (key, value) ∉ rest := fun hmem =>
          hentries.1 (List.mem_map.mpr ⟨_, hmem, rfl⟩)
        simp [hrest, eq_comm]
      · simp [beq_false_of_ne hk, hk, ih hentries.2]

end Index

/-! What an edition keeps when it is revised. -/

namespace Edition

structure Becomes (old new : Edition) : Prop where
  dialect : new.dialect = old.dialect
  name : new.name = old.name
  aliases : old.aliases <+: new.aliases

variable {old mid new e : Edition}

theorem Becomes.refl (e : Edition) : e.Becomes e := ⟨rfl, rfl, List.prefix_rfl⟩

theorem Becomes.trans (hfirst : old.Becomes mid) (hsecond : mid.Becomes new) : old.Becomes new :=
  ⟨hsecond.dialect.trans hfirst.dialect, hsecond.name.trans hfirst.name,
    hfirst.aliases.trans hsecond.aliases⟩

theorem Becomes.isNamed (hbecomes : old.Becomes new) {name : String}
    (hname : old.isNamed name = true) : new.isNamed name = true := by
  rw [Edition.isNamed, List.any_eq_true] at hname ⊢
  obtain ⟨own, hown, hlower⟩ := hname
  refine ⟨own, ?_, hlower⟩
  rw [List.mem_cons] at hown ⊢
  exact hown.imp (·.trans hbecomes.name.symm) (hbecomes.aliases.subset ·)

theorem becomes_apply (revision : Revision) (e : Edition) : e.Becomes (revision.apply e) := by
  cases revision with
  | addAliases names => exact ⟨rfl, rfl, List.prefix_append _ _⟩
  | addWords _ | addStrictWords _ | drop _ | extend _ | settle =>
      exact ⟨rfl, rfl, List.prefix_rfl⟩

theorem becomes_revise (revisions : List Revision) (e : Edition) :
    e.Becomes (e.revise revisions) := by
  induction revisions generalizing e with
  | nil => exact .refl e
  | cons revision revisions ih => exact (becomes_apply revision e).trans (ih _)

theorem isNamed_iff {name : String} :
    e.isNamed name = true ↔ Text.lower name ∈ Catalogue.keys e := by
  simp only [isNamed, Catalogue.keys, List.any_eq_true, List.mem_map, beq_iff_eq]

end Edition

namespace Catalogue

variable {c : Catalogue} {past : List Registration} {events : List Event}

/-! The shelf. An edition stays at its place, and only revisions of it change it. -/

theorem shelf_step {place : Nat} {e : Edition} (he : c.shelf[place]? = some e) (event : Event) :
    (c.step event).shelf[place]? = some (e.revise (event.revisionsAt place)) := by
  cases event with
  | place edition =>
      rw [step, Catalogue.place, List.getElem?_append_left (List.getElem?_eq_some_iff.mp he).1]
      exact he
  | revise other revision =>
      rw [step, modify, List.getElem?_modify, he, Event.revisionsAt]
      by_cases hother : other = place
      · simp [hother, Edition.revise]
      · simp [hother, Edition.revise]
  | register other =>
      rw [step, register]
      cases c.shelf[other]? with
      | none => exact he
      | some _ => exact he

theorem shelf_run {place : Nat} {e : Edition} (he : c.shelf[place]? = some e)
    (events : List Event) :
    (c.run events).shelf[place]? =
      some (e.revise (events.flatMap (·.revisionsAt place))) := by
  induction events generalizing c e with
  | nil => exact he
  | cons event later ih =>
      rw [List.flatMap_cons, Edition.revise, List.foldl_append]
      exact ih (shelf_step he event)

theorem of_mem_registered {event : Event} {r : Registration} (hr : r ∈ c.registered event) :
    event = .register r.place ∧ c.shelf[r.place]? = some r.edition := by
  cases event with
  | place edition | revise place revision => cases hr
  | register place =>
      rw [registered] at hr
      cases he : c.shelf[place]? with
      | none => simp [he] at hr
      | some e =>
          obtain rfl : r = ⟨place, e⟩ := by simpa [he] using hr
          exact ⟨rfl, he⟩

theorem run_append (c : Catalogue) (earlier later : List Event) :
    c.run (earlier ++ later) = (c.run earlier).run later :=
  List.foldl_append

/-- An edition stood on the shelf as it was registered, at some time of the run. -/
theorem exists_standing {r : Registration} (hr : r ∈ c.registrations events) :
    ∃ earlier later, events = earlier ++ later ∧
      (c.run earlier).shelf[r.place]? = some r.edition := by
  induction events generalizing c with
  | nil => cases hr
  | cons event rest ih =>
      rw [registrations, List.mem_append] at hr
      rcases hr with hr | hr
      · exact ⟨[], event :: rest, rfl, (of_mem_registered hr).2⟩
      · obtain ⟨earlier, later, rfl, hstanding⟩ := ih hr
        exact ⟨event :: earlier, later, rfl, hstanding⟩

/-! The indexes. -/

theorem getLast?_filter_concat (p : Registration → Bool) (past : List Registration)
    (r : Registration) :
    ((past ++ [r]).filter p).getLast? = if p r then some r else (past.filter p).getLast? := by
  rw [List.filter_append]
  by_cases hr : p r = true
  · simp [hr]
  · simp [hr]

/-- What the indexes of a catalogue hold of its past registrations. -/
structure Recorded (c : Catalogue) (past : List Registration) : Prop where
  nodup : (c.byDialect.map Prod.fst).Nodup
  placeFor : ∀ d, c.placeFor? d = (lastFor? d past).map (·.place)
  placeNamed : ∀ name, c.placeNamed? name = (lastNamed? name past).map (·.place)
  standing : ∀ r ∈ past, ∃ e, c.shelf[r.place]? = some e ∧ r.edition.Becomes e
  ordered : past.Pairwise fun r s => r.place = s.place → r.edition.Becomes s.edition

theorem recorded_empty : Recorded empty [] where
  nodup := List.nodup_nil
  placeFor _ := rfl
  placeNamed _ := rfl
  standing := nofun
  ordered := .nil

theorem Recorded.register (hc : Recorded c past) {place : Nat} {e : Edition}
    (he : c.shelf[place]? = some e) : Recorded (c.register place) (past ++ [⟨place, e⟩]) := by
  have hregister : c.register place =
      { c with
        byDialect := assign e.dialect place c.byDialect
        byName := (keys e).foldl (fun index key => assign key place index) c.byName } := by
    rw [Catalogue.register, he]
  rw [hregister]
  refine ⟨nodup_assign hc.nodup _ _, fun d => ?_, fun name => ?_, ?_, ?_⟩
  · have hd := hc.placeFor d
    rw [placeFor?] at hd
    rw [placeFor?, lookup_assign, hd, lastFor?, lastFor?, getLast?_filter_concat]
    by_cases hdialect : d = e.dialect
    · simp [hdialect]
    · simp [hdialect, Ne.symm hdialect]
  · have hname := hc.placeNamed name
    rw [placeNamed?] at hname
    rw [placeNamed?, lookup_foldl_assign, hname, lastNamed?, lastNamed?, getLast?_filter_concat]
    by_cases hnamed : e.isNamed name = true
    · simp [hnamed, Edition.isNamed_iff.mp hnamed]
    · simp [hnamed, mt Edition.isNamed_iff.mpr hnamed]
  · rw [List.forall_mem_append, List.forall_mem_singleton]
    exact ⟨hc.standing, e, he, .refl e⟩
  · rw [List.pairwise_append]
    refine ⟨hc.ordered, List.pairwise_singleton _ _, ?_⟩
    intro r hr s hs hplace
    obtain rfl := List.mem_singleton.mp hs
    obtain ⟨later, hlater, hbecomes⟩ := hc.standing r hr
    rw [hplace, he, Option.some.injEq] at hlater
    rwa [← hlater] at hbecomes

theorem Recorded.step (hc : Recorded c past) (event : Event) :
    Recorded (c.step event) (past ++ c.registered event) := by
  have hstanding : ∀ r ∈ past, ∃ e, (c.step event).shelf[r.place]? = some e ∧
      r.edition.Becomes e := by
    intro r hr
    obtain ⟨e, he, hbecomes⟩ := hc.standing r hr
    exact ⟨_, shelf_step he event, hbecomes.trans (e.becomes_revise _)⟩
  cases event with
  | place edition | revise place revision =>
      rw [registered, List.append_nil]
      exact ⟨hc.nodup, hc.placeFor, hc.placeNamed, hstanding, hc.ordered⟩
  | register place =>
      rw [registered]
      cases he : c.shelf[place]? with
      | some e => exact hc.register he
      | none =>
          have hstep : c.step (.register place) = c := by
            rw [Catalogue.step, Catalogue.register, he]
          rwa [hstep, List.append_nil]

theorem Recorded.run (hc : Recorded c past) (events : List Event) :
    Recorded (c.run events) (past ++ c.registrations events) := by
  induction events generalizing c past with
  | nil =>
      rw [registrations, List.append_nil]
      exact hc
  | cons event later ih =>
      rw [registrations, ← List.append_assoc]
      exact ih (hc.step event)

theorem recorded_builtin : Recorded builtin builtinRegistrations :=
  recorded_empty.run [.place editionES3, .register 0, .place editionES5, .register 1,
    .place editionES6, .register 2]

/-! The answers. -/

section Answers

theorem Recorded.get?_eq (hc : Recorded c past) (d : Dialect) :
    c.get? d = (lastFor? d past).bind fun r => c.shelf[r.place]? := by
  rw [Catalogue.get?_eq, hc.placeFor, Option.bind_map]
  rfl

theorem Recorded.lookup?_eq (hc : Recorded c past) (name : String) :
    c.lookup? name = (lastNamed? name past).bind fun r => c.shelf[r.place]? := by
  rw [Catalogue.lookup?_eq, hc.placeNamed, Option.bind_map]
  rfl

theorem mem_of_lastFor? {d : Dialect} {r : Registration} (hr : lastFor? d past = some r) :
    r ∈ past ∧ r.edition.dialect = d := by
  have hmem := List.mem_of_getLast? hr
  simpa using hmem

theorem Recorded.dialect_of_placeFor? (hc : Recorded c past) {d : Dialect} {place : Nat}
    (hplace : c.placeFor? d = some place) :
    ∃ e, c.shelf[place]? = some e ∧ e.dialect = d := by
  rw [hc.placeFor, Option.map_eq_some_iff] at hplace
  obtain ⟨r, hr, rfl⟩ := hplace
  obtain ⟨hmem, hdialect⟩ := mem_of_lastFor? hr
  obtain ⟨e, he, hbecomes⟩ := hc.standing r hmem
  exact ⟨e, he, hbecomes.dialect.trans hdialect⟩

theorem Recorded.mem_list_iff (hc : Recorded c past) (e : Edition) :
    e ∈ c.list ↔ ∃ d, c.get? d = some e := by
  simp only [list, List.mem_mergeSort, List.mem_filterMap, Catalogue.get?_eq, placeFor?,
    Option.bind_eq_some_iff, lookup_eq_some_iff_mem hc.nodup, Prod.exists]

theorem Recorded.dialects_on_shelf (hc : Recorded c past) {entries : List (Dialect × Nat)}
    (hentries : ∀ entry ∈ entries, entry ∈ c.byDialect) :
    (entries.filterMap fun entry => c.shelf[entry.2]?).map (·.dialect) = entries.map Prod.fst := by
  induction entries with
  | nil => rfl
  | cons entry rest ih =>
      rw [List.forall_mem_cons] at hentries
      have hplace : c.placeFor? entry.1 = some entry.2 :=
        (lookup_eq_some_iff_mem hc.nodup).mpr hentries.1
      obtain ⟨e, he, hdialect⟩ := hc.dialect_of_placeFor? hplace
      simp only [List.filterMap_cons, he, List.map_cons, hdialect, ih hentries.2]

theorem Recorded.nodup_list (hc : Recorded c past) : (c.list.map (·.dialect)).Nodup := by
  have hperm := (List.mergeSort_perm (c.byDialect.filterMap fun entry => c.shelf[entry.2]?)
    (fun a b => decide (a.dialect.number ≤ b.dialect.number))).map (·.dialect)
  rw [hc.dialects_on_shelf fun _ hentry => hentry] at hperm
  exact hperm.nodup_iff.mpr hc.nodup

theorem Recorded.pairwise_list (hc : Recorded c past) :
    c.list.Pairwise fun older newer => older.dialect.number < newer.dialect.number := by
  have hsorted : c.list.Pairwise fun a b =>
      decide (a.dialect.number ≤ b.dialect.number) = true := by
    refine List.pairwise_mergeSort (fun a b c hab hbc => ?_) (fun a b => ?_) _
    · rw [decide_eq_true_eq] at hab hbc ⊢
      exact Int.le_trans hab hbc
    · simpa using Int.le_total a.dialect.number b.dialect.number
  refine (hsorted.and (List.pairwise_map.mp hc.nodup_list)).imp ?_
  rintro ⟨⟨m⟩, _, _, _, _⟩ ⟨⟨n⟩, _, _, _, _⟩ ⟨hle, hne⟩
  simp only [decide_eq_true_eq, ne_eq, Dialect.mk.injEq] at hle hne ⊢
  omega

theorem Recorded.exists_get? (hc : Recorded c past) {d : Dialect}
    (hd : ∃ r ∈ past, r.edition.dialect = d) : ∃ e, c.get? d = some e := by
  obtain ⟨r, hr, hdialect⟩ := hd
  have hne : (past.filter fun r => decide (r.edition.dialect = d)) ≠ [] :=
    List.ne_nil_of_mem (List.mem_filter.mpr ⟨hr, decide_eq_true hdialect⟩)
  have hlast : lastFor? d past = some _ := List.getLast?_eq_some_getLast hne
  obtain ⟨e, he, -⟩ := hc.standing _ (mem_of_lastFor? hlast).1
  exact ⟨e, by rw [hc.get?_eq, hlast, Option.bind_some, he]⟩

theorem reserves_eq {newest : Edition} (hnewest : c.get? .es6 = some newest) (word : String)
    (d : Dialect) (strict : Bool) :
    c.reserves word d strict =
      ((c.get? (if d = .unset then .es6 else d)).getD newest).reserves word strict := by
  have hresolve : d.resolve = if d = .unset then .es6 else d := rfl
  rw [reserves, hresolve]
  cases hd : c.get? (if d = .unset then .es6 else d) with
  | some e => rfl
  | none => rw [Dialect.latest, hnewest]; rfl

theorem shelf_builtinRegistrations :
    ∀ r ∈ builtinRegistrations, builtin.shelf[r.place]? = some r.edition := by
  rw [builtinRegistrations, List.forall_mem_cons, List.forall_mem_cons, List.forall_mem_singleton]
  exact ⟨rfl, rfl, rfl⟩

/-- Whatever is put on the shelf, revised and registered, a dialect has the edition that was last
registered for it, and a name leads to the edition that was last registered under it or under a name
with the same lower-case form; a registered edition is as it was registered, with its revisions
since then. The list holds the editions of the dialects in order. A word is reserved as the edition
of the dialect has it; without a dialect, and for a dialect without an edition, as the newest one
has it. -/
theorem answers_of_run (events : List Event) :
    let c := builtin.run events
    let past := builtinRegistrations ++ builtin.registrations events
    (∀ r ∈ past, ∃ earlier later, events = earlier ++ later ∧
      (builtin.run earlier).shelf[r.place]? = some r.edition ∧
      c.shelf[r.place]? = some (r.edition.revise (later.flatMap (·.revisionsAt r.place)))) ∧
    (∀ d, c.get? d = (lastFor? d past).bind fun r => c.shelf[r.place]?) ∧
    (∀ name, c.lookup? name = (lastNamed? name past).bind fun r => c.shelf[r.place]?) ∧
    c.list.Pairwise (fun older newer => older.dialect.number < newer.dialect.number) ∧
    (∀ e, e ∈ c.list ↔ ∃ d, c.get? d = some e) ∧
    c.names = c.list.map (·.name) ∧
    ∃ newest, c.get? .es6 = some newest ∧ ∀ word d strict, c.reserves word d strict =
      ((c.get? (if d = .unset then .es6 else d)).getD newest).reserves word strict := by
  intro c past
  have hc : Recorded c past := recorded_builtin.run events
  obtain ⟨newest, hnewest⟩ : ∃ e, c.get? .es6 = some e := hc.exists_get? ⟨⟨2, editionES6⟩,
    List.mem_append_left _ (by simp [builtinRegistrations]), rfl⟩
  refine ⟨fun r hr => ?_, hc.get?_eq, hc.lookup?_eq, hc.pairwise_list, hc.mem_list_iff, rfl, newest,
    hnewest, reserves_eq hnewest⟩
  obtain ⟨earlier, later, hevents, hstanding⟩ : ∃ earlier later, events = earlier ++ later ∧
      (builtin.run earlier).shelf[r.place]? = some r.edition := by
    rcases List.mem_append.mp hr with hr | hr
    · exact ⟨[], events, rfl, shelf_builtinRegistrations r hr⟩
    · exact exists_standing hr
  refine ⟨earlier, later, hevents, hstanding, ?_⟩
  have hrun : c = (builtin.run earlier).run later := by rw [← run_append, ← hevents]
  rw [hrun]
  exact shelf_run hstanding later

end Answers

/-! Names of editions that were replaced. -/

section Replaced

theorem lastFor?_append (d : Dialect) (first second : List Registration) :
    lastFor? d (first ++ second) = (lastFor? d second).or (lastFor? d first) := by
  rw [lastFor?, List.filter_append, List.getLast?_append]
  rfl

theorem lastFor?_eq_none_iff {d : Dialect} :
    lastFor? d past = none ↔ ∀ s ∈ past, s.edition.dialect ≠ d := by
  simp [lastFor?]

theorem exists_split_of_lastNamed? {name : String} {r : Registration}
    (hr : lastNamed? name past = some r) :
    ∃ before after, past = before ++ r :: after ∧ r.edition.isNamed name = true ∧
      ∀ s ∈ after, s.edition.isNamed name = false := by
  rw [lastNamed?, List.getLast?_filter, List.find?_eq_some_iff_append] at hr
  obtain ⟨hnamed, after, before, hpast, hafter⟩ := hr
  refine ⟨before.reverse, after.reverse, ?_, hnamed, fun s hs => ?_⟩
  · simpa using congrArg List.reverse hpast
  · simpa using hafter s (List.mem_reverse.mp hs)

/-- A name leads to the edition last registered under it. That edition is the one that its own
dialect has as long as no edition was registered for the dialect since; after that the name still
leads to the edition that was replaced. -/
theorem lookup_agrees_iff {name : String} {e : Edition} (events : List Event)
    (hname : (builtin.run events).lookup? name = some e) :
    let c := builtin.run events
    ∃ before r after,
      builtinRegistrations ++ builtin.registrations events = before ++ r :: after ∧
      r.edition.isNamed name = true ∧ (∀ s ∈ after, s.edition.isNamed name = false) ∧
      c.placeNamed? name = some r.place ∧ c.shelf[r.place]? = some e ∧
      (c.placeFor? e.dialect = c.placeNamed? name ↔
        ∀ s ∈ after, s.edition.dialect ≠ e.dialect) := by
  intro c
  have hc : Recorded c (builtinRegistrations ++ builtin.registrations events) :=
    recorded_builtin.run events
  rw [hc.lookup?_eq, Option.bind_eq_some_iff] at hname
  obtain ⟨r, hr, he⟩ := hname
  have hplace : c.placeNamed? name = some r.place := by rw [hc.placeNamed, hr, Option.map_some]
  obtain ⟨before, after, hpast, hnamed, hlast⟩ := exists_split_of_lastNamed? hr
  refine ⟨before, r, after, hpast, hnamed, hlast, hplace, he, ?_⟩
  rw [hpast] at hc
  obtain ⟨e', he', hbecomes⟩ := hc.standing r (List.mem_append_right _ List.mem_cons_self)
  obtain rfl : e = e' := Option.some.inj (he.symm.trans he')
  have hordered := (List.pairwise_cons.mp (List.pairwise_append.mp hc.ordered).2.1).1
  rw [hplace, hc.placeFor, List.append_cons, lastFor?_append]
  cases hfor : lastFor? e.dialect after with
  | none =>
      have hself : lastFor? e.dialect (before ++ [r]) = some r := by
        rw [lastFor?, getLast?_filter_concat, if_pos (decide_eq_true hbecomes.dialect.symm)]
      simp only [hself, Option.none_or, Option.map_some, true_iff]
      exact lastFor?_eq_none_iff.mp hfor
  | some s =>
      obtain ⟨hs, hdialect⟩ := mem_of_lastFor? hfor
      -- A later registration of the same edition would have been under the name too.
      have hother : s.place ≠ r.place := by
        intro hsame
        have hagain := (hordered s hs hsame.symm).isNamed hnamed
        rw [hlast s hs] at hagain
        cases hagain
      simp only [Option.some_or, Option.map_some, Option.some.injEq, hother, false_iff]
      exact fun hall => hall s hs hdialect

/-! A new edition for a dialect, under a name of its own. -/

def replacement : Edition := (Edition.blank .es5 "mine").addWords ["mine"]

def replacing : List Event := [.place replacement, .register 3]

theorem lookup_agrees_iff_replaced :
    (builtin.run replacing).lookup? "ES5" = some editionES5 ∧
      (builtin.run replacing).get? .es5 = some replacement ∧
      ∃ before r after,
        builtinRegistrations ++ builtin.registrations replacing = before ++ r :: after ∧
        r.edition.isNamed "ES5" = true ∧ ∃ s ∈ after, s.edition.dialect = .es5 := by
  have hlower : Text.lower "ES5" = "es5" := by decide +kernel
  have hkeys : "es5" ∉ keys replacement := by decide +kernel
  have hbuiltin : builtin.byName.lookup "es5" = some 1 := by decide +kernel
  have hindex : (builtin.run replacing).byName =
      (keys replacement).foldl (fun index key => assign key 3 index) builtin.byName := rfl
  have hname : (builtin.run replacing).lookup? "ES5" = some editionES5 := by
    rw [lookup?_eq, placeNamed?, hindex, lookup_foldl_assign, hlower, if_neg hkeys, hbuiltin]
    rfl
  have hplace : (builtin.run replacing).placeFor? .es5 = some 3 := rfl
  have hshelf : (builtin.run replacing).shelf[3]? = some replacement := rfl
  obtain ⟨before, r, after, hpast, hnamed, -, hr, he, hagrees⟩ := lookup_agrees_iff replacing hname
  refine ⟨hname, by rw [get?_eq, hplace, Option.bind_some, hshelf], before, r, after, hpast, hnamed,
    ?_⟩
  apply Classical.byContradiction
  intro hnone
  have hsame : (builtin.run replacing).placeFor? .es5 = some r.place :=
    (hagrees.mpr fun s hs hdialect => hnone ⟨s, hs, hdialect⟩).trans hr
  rw [← Option.some.inj (hplace.symm.trans hsame), hshelf] at he
  have hequal : replacement = editionES5 := Option.some.inj he
  exact absurd (congrArg Edition.name hequal) (by decide)

end Replaced

end Catalogue

/-! Drafts. Whatever is done with them, their catalogue is that of a run. -/

namespace Workshop

theorem catalogue_perform (w : Workshop) (command : Command) :
    (w.perform command).catalogue = w.catalogue.run (w.events command) := by
  cases command with
  | draft id dialect name => rfl
  | revise id revision =>
      rw [perform, revise, events]
      cases w.drafts.lookup id with
      | none => rfl
      | some place => rfl
  | build id =>
      rw [perform, build, events]
      cases w.drafts.lookup id with
      | none => rfl
      | some place => rfl
  | register id =>
      rw [perform, register, events]
      cases w.built.lookup id with
      | none => rfl
      | some place => rfl

theorem exists_run (w : Workshop) (commands : List Command) :
    ∃ events, (commands.foldl perform w).catalogue = w.catalogue.run events := by
  induction commands generalizing w with
  | nil => exact ⟨[], rfl⟩
  | cons command later ih =>
      obtain ⟨events, hlater⟩ := ih (w.perform command)
      refine ⟨w.events command ++ events, ?_⟩
      rw [List.foldl_cons, hlater, catalogue_perform, Catalogue.run_append]

end Workshop

end ScriptTree.Reserved
