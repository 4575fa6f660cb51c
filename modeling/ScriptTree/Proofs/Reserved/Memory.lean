import Mathlib.Data.List.Nodup
import ScriptTree.Reserved.History
import ScriptTree.Reserved.Memory

/-!
The memory behaves as a shelf of editions. Every edition has its two tables to itself, and an
extension takes a copy of the words of its base; so a change in memory is a revision of the edition
at its place and of no other.
-/

namespace ScriptTree.Reserved

/-! Changes of a shelf. -/

namespace Change

/-- The revision that a change amounts to, with the words that its base has on the shelf. -/
def revision? (shelf : List Edition) : Change → Option Revision
  | addWords words => some (.addWords words)
  | addStrictWords words => some (.addStrictWords words)
  | drop words => some (.drop words)
  | addAliases names => some (.addAliases names)
  | extend base => (shelf[base]?).map .extend
  | settle => some .settle

def onShelf (change : Change) (place : Nat) (shelf : List Edition) : List Edition :=
  match change.revision? shelf with
  | some revision => shelf.modify place revision.apply
  | none => shelf

variable {place other : Nat} {shelf : List Edition}

theorem length_onShelf (change : Change) (place : Nat) (shelf : List Edition) :
    (change.onShelf place shelf).length = shelf.length := by
  rw [onShelf]
  cases change.revision? shelf with
  | none => rfl
  | some revision => exact List.length_modify revision.apply shelf place

theorem onShelf_of_length_le (change : Change) (hplace : shelf.length ≤ place) :
    change.onShelf place shelf = shelf := by
  rw [onShelf]
  cases change.revision? shelf with
  | none => rfl
  | some revision => exact List.modify_eq_self hplace

theorem getElem?_onShelf_of_ne (change : Change) (hother : place ≠ other) :
    (change.onShelf place shelf)[other]? = shelf[other]? := by
  rw [onShelf]
  cases change.revision? shelf with
  | none => rfl
  | some revision => exact List.getElem?_modify_ne revision.apply shelf hother

end Change

/-! Records and tables. -/

def Record.tables (r : Record) : List Nat := [r.words, r.strictWords]

namespace Memory

variable {m : Memory} {r q : Record} {place other address : Nat}

theorem shelf_getElem? (m : Memory) (place : Nat) : m.shelf[place]? = m.edition? place :=
  List.getElem?_map ..

theorem length_shelf (m : Memory) : m.shelf.length = m.records.length := List.length_map ..

/-- The addresses of all tables that an edition has. -/
def addresses (m : Memory) : List Nat := m.records.flatMap Record.tables

/-- Every edition has its two tables to itself. -/
structure Separate (m : Memory) : Prop where
  nodup : m.addresses.Nodup
  bounded : ∀ address ∈ m.addresses, address < m.tables.length

theorem words_mem_addresses (hr : r ∈ m.records) : r.words ∈ m.addresses :=
  List.mem_flatMap.mpr ⟨r, hr, List.mem_cons_self⟩

theorem strictWords_mem_addresses (hr : r ∈ m.records) : r.strictWords ∈ m.addresses :=
  List.mem_flatMap.mpr ⟨r, hr, List.mem_cons_of_mem _ List.mem_cons_self⟩

theorem Separate.own (hm : m.Separate) (hr : r ∈ m.records) : r.words ≠ r.strictWords := by
  have htables : r.tables.Nodup := (List.nodup_flatMap.mp hm.nodup).1 r hr
  intro hsame
  simp [Record.tables, hsame] at htables

theorem Separate.apart (hm : m.Separate) (hr : m.records[place]? = some r)
    (hq : m.records[other]? = some q) (hother : other ≠ place) :
    List.Disjoint r.tables q.tables := by
  obtain ⟨hplace, rfl⟩ := List.getElem?_eq_some_iff.mp hr
  obtain ⟨hbound, rfl⟩ := List.getElem?_eq_some_iff.mp hq
  have hpairs := List.pairwise_iff_getElem.mp (List.nodup_flatMap.mp hm.nodup).2
  rcases Nat.lt_or_gt_of_ne hother with hlt | hlt
  · intro address haddress hshared
    exact hpairs other place hbound hplace hlt hshared haddress
  · exact hpairs place other hplace hbound hlt

/-! Writing. -/

section Write

variable {change : List String → List String} {revise : Edition → Edition}

theorem read_write (haddress : address < m.tables.length) (change : List String → List String)
    (other : Nat) :
    (m.write address change).read other =
      if address = other then change (m.read other) else m.read other := by
  rw [read, write, List.getD_eq_getElem?_getD, List.getElem?_modify, read,
    List.getD_eq_getElem?_getD]
  by_cases hother : address = other
  · subst hother
    simp [haddress]
  · simp [hother]

theorem Separate.write (hm : m.Separate) (address : Nat) (change : List String → List String) :
    (m.write address change).Separate where
  nodup := hm.nodup
  bounded other hother := by
    rw [Memory.write, List.length_modify]
    exact hm.bounded other hother

theorem edition_write_words (hm : m.Separate) (hr : r ∈ m.records)
    (change : List String → List String) :
    (m.write r.words change).edition r =
      { m.edition r with words := change (m.edition r).words } := by
  have hread := read_write (hm.bounded _ (words_mem_addresses hr)) change
  rw [edition, hread, hread, if_pos rfl, if_neg (hm.own hr)]
  rfl

theorem edition_write_strictWords (hm : m.Separate) (hr : r ∈ m.records)
    (change : List String → List String) :
    (m.write r.strictWords change).edition r =
      { m.edition r with strictWords := change (m.edition r).strictWords } := by
  have hread := read_write (hm.bounded _ (strictWords_mem_addresses hr)) change
  rw [edition, hread, hread, if_neg (hm.own hr).symm, if_pos rfl]
  rfl

/-- The editions of other records do not see a write. -/
theorem edition_write_of_apart (haddress : address < m.tables.length) (hq : address ∉ q.tables)
    (change : List String → List String) : (m.write address change).edition q = m.edition q := by
  have hread := read_write haddress change
  rw [Record.tables, List.mem_pair, not_or] at hq
  rw [edition, hread, hread, if_neg hq.1, if_neg hq.2]
  rfl

theorem shelf_write (hm : m.Separate) (hr : m.records[place]? = some r)
    (haddress : address ∈ r.tables)
    (hrevise : (m.write address change).edition r = revise (m.edition r)) :
    (m.write address change).shelf = m.shelf.modify place revise := by
  have hbound : address < m.tables.length :=
    hm.bounded _ (List.mem_flatMap.mpr ⟨r, List.mem_of_getElem? hr, haddress⟩)
  apply List.ext_getElem?
  intro other
  rw [List.getElem?_modify, shelf_getElem?, shelf_getElem?, edition?, edition?]
  cases hq : m.records[other]? with
  | none => simp [write, hq]
  | some q =>
      by_cases hother : other = place
      · subst hother
        obtain rfl : r = q := Option.some.inj (hr.symm.trans hq)
        simp [write, hq, ← hrevise]
      · have hapart := edition_write_of_apart hbound (hm.apart hr hq hother haddress) change
        simp [write, hq, ← hapart, Ne.symm hother]

theorem shelf_write_words (hm : m.Separate) (hr : m.records[place]? = some r)
    (change : List String → List String) :
    (m.write r.words change).shelf =
      m.shelf.modify place fun e => { e with words := change e.words } :=
  shelf_write hm hr List.mem_cons_self (edition_write_words hm (List.mem_of_getElem? hr) change)

theorem shelf_write_strictWords (hm : m.Separate) (hr : m.records[place]? = some r)
    (change : List String → List String) :
    (m.write r.strictWords change).shelf =
      m.shelf.modify place fun e => { e with strictWords := change e.strictWords } :=
  shelf_write hm hr (List.mem_cons_of_mem _ List.mem_cons_self)
    (edition_write_strictWords hm (List.mem_of_getElem? hr) change)

end Write

/-! Allocating. -/

theorem addresses_allocate (m : Memory) (e : Edition) :
    (m.allocate e).addresses = m.addresses ++ [m.tables.length, m.tables.length + 1] := by
  rw [addresses, allocate, List.flatMap_append, List.flatMap_singleton]
  rfl

theorem Separate.allocate (hm : m.Separate) (e : Edition) : (m.allocate e).Separate := by
  have hlength : (m.allocate e).tables.length = m.tables.length + 2 := List.length_append
  refine ⟨?_, ?_⟩
  · rw [addresses_allocate, List.nodup_append]
    refine ⟨hm.nodup, by simp, ?_⟩
    intro old hold new hnew
    have hbound := hm.bounded old hold
    simp only [List.mem_cons, List.not_mem_nil, or_false] at hnew
    omega
  · intro address haddress
    rw [addresses_allocate, List.mem_append] at haddress
    cases haddress with
    | inl hold =>
        have hbound := hm.bounded address hold
        omega
    | inr hnew =>
        simp only [List.mem_cons, List.not_mem_nil, or_false] at hnew
        omega

theorem read_allocate (e : Edition) (haddress : address < m.tables.length) :
    (m.allocate e).read address = m.read address := by
  rw [read, read, List.getD_eq_getElem?_getD, List.getD_eq_getElem?_getD, allocate,
    List.getElem?_append_left haddress]

theorem shelf_allocate (hm : m.Separate) (e : Edition) :
    (m.allocate e).shelf = m.shelf ++ [e] := by
  have hold : m.records.map (m.allocate e).edition = m.shelf := by
    apply List.map_congr_left
    intro r hr
    rw [edition, read_allocate e (hm.bounded _ (words_mem_addresses hr)),
      read_allocate e (hm.bounded _ (strictWords_mem_addresses hr))]
    rfl
  have hnew : (m.allocate e).edition
      ⟨e.dialect, e.name, e.aliases, m.tables.length, m.tables.length + 1⟩ = e := by
    simp [edition, read, allocate]
  calc (m.allocate e).shelf
      = m.records.map (m.allocate e).edition ++ [(m.allocate e).edition
          ⟨e.dialect, e.name, e.aliases, m.tables.length, m.tables.length + 1⟩] := List.map_append
    _ = m.shelf ++ [e] := by rw [hold, hnew]

theorem Separate.foldl_allocate (hm : m.Separate) (editions : List Edition) :
    (editions.foldl Memory.allocate m).Separate ∧
      (editions.foldl Memory.allocate m).shelf = m.shelf ++ editions := by
  induction editions generalizing m with
  | nil => exact ⟨hm, (List.append_nil _).symm⟩
  | cons e editions ih =>
      have hlater := ih (hm.allocate e)
      rw [shelf_allocate hm, List.append_assoc] at hlater
      exact hlater

/-! Changing. -/

theorem addresses_addAliases (m : Memory) (place : Nat) (r : Record) (names : List String) :
    (m.alterRecord place r (.addAliases names)).addresses = m.addresses := by
  rw [addresses, addresses, List.flatMap_def, List.flatMap_def]
  congr 1
  apply List.ext_getElem?
  intro other
  simp only [alterRecord, List.getElem?_map, List.getElem?_modify]
  cases m.records[other]? with
  | none => rfl
  | some q =>
      by_cases hother : place = other
      · simp [hother, Record.tables]
      · simp [hother]

theorem shelf_addAliases (m : Memory) (place : Nat) (r : Record) (names : List String) :
    (m.alterRecord place r (.addAliases names)).shelf =
      m.shelf.modify place (·.addAliases names) := by
  apply List.ext_getElem?
  intro other
  simp only [alterRecord, shelf, List.getElem?_map, List.getElem?_modify]
  cases m.records[other]? with
  | none => rfl
  | some q =>
      by_cases hother : place = other
      · simp [hother, edition, Edition.addAliases, read]
      · simp [hother, edition, read]

theorem Separate.alter (hm : m.Separate) (place : Nat) (change : Change) :
    (m.alter place change).Separate := by
  rw [Memory.alter]
  cases m.records[place]? with
  | none => exact hm
  | some r =>
      cases change with
      | addWords _ | addStrictWords _ | settle => exact hm.write _ _
      | drop _ => exact (hm.write _ _).write _ _
      | addAliases names =>
          have haddresses : (m.alterRecord place r (.addAliases names)).addresses = m.addresses :=
            addresses_addAliases m place r names
          exact ⟨haddresses ▸ hm.nodup, haddresses ▸ hm.bounded⟩
      | extend base =>
          cases hb : m.records[base]? with
          | none =>
              simp only [alterRecord, hb]
              exact hm
          | some b =>
              simp only [alterRecord, hb]
              exact (hm.write _ _).write _ _

theorem shelf_extend {base : Nat} {b : Record} (hm : m.Separate) (hr : m.records[place]? = some r)
    (hb : m.records[base]? = some b) :
    (m.alterRecord place r (.extend base)).shelf =
      m.shelf.modify place (·.extend (m.edition b)) := by
  -- The words are copied before the strict words; the base may be the edition itself.
  have hdistinct : r.words ≠ b.strictWords := by
    by_cases hbase : base = place
    · subst hbase
      obtain rfl : r = b := Option.some.inj (hr.symm.trans hb)
      exact hm.own (List.mem_of_getElem? hr)
    · intro hsame
      exact hm.apart hr hb hbase List.mem_cons_self (by simp [hsame, Record.tables])
  have hread : (m.write r.words (insertAll · (m.read b.words))).read b.strictWords =
      m.read b.strictWords := by
    rw [read_write (hm.bounded _ (words_mem_addresses (List.mem_of_getElem? hr))),
      if_neg hdistinct]
  simp only [alterRecord, hb]
  rw [shelf_write_strictWords (hm.write _ _) hr, shelf_write_words hm hr, List.modify_modify_eq,
    hread]
  rfl

theorem shelf_alterRecord (hm : m.Separate) (hr : m.records[place]? = some r) (change : Change) :
    (m.alterRecord place r change).shelf = change.onShelf place m.shelf := by
  cases change with
  | addWords words => exact shelf_write_words hm hr _
  | addStrictWords words => exact shelf_write_strictWords hm hr _
  | drop words =>
      rw [alterRecord, shelf_write_strictWords (hm.write _ _) hr, shelf_write_words hm hr,
        List.modify_modify_eq]
      rfl
  | addAliases names => exact shelf_addAliases m place r names
  | extend base =>
      rw [Change.onShelf, Change.revision?, shelf_getElem?, edition?]
      cases hb : m.records[base]? with
      | none => simp [alterRecord, hb]
      | some b => exact shelf_extend hm hr hb
  | settle =>
      exact shelf_write hm hr (List.mem_cons_of_mem _ List.mem_cons_self)
        (edition_write_strictWords hm (List.mem_of_getElem? hr) _)

theorem shelf_alter (hm : m.Separate) (place : Nat) (change : Change) :
    (m.alter place change).shelf = change.onShelf place m.shelf := by
  rw [alter]
  cases hr : m.records[place]? with
  | none =>
      rw [change.onShelf_of_length_le]
      rw [length_shelf]
      exact List.getElem?_eq_none_iff.mp hr
  | some r => exact shelf_alterRecord hm hr change

end Memory

end ScriptTree.Reserved
