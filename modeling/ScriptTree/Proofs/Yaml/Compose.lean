import ScriptTree.Proofs.Yaml.Outline
import ScriptTree.Yaml.Node

/-!
The node tree of a shared text mirrors its value.
-/

namespace ScriptTree.Yaml

/-- A pair of a mapping and the member that it mirrors. -/
structure Entry where
  key : ByteString
  line : Nat
  node : Node
  term : Json.Term

namespace Entry

def pair (e : Entry) : Node × Node :=
  (.scalar e.key.text (some .str) .doubleQuoted e.line, e.node)

def member (e : Entry) : ByteString × Json.Term := (e.key, e.term)

end Entry

/-- A node of the shape of a value. -/
inductive Mirrors : Node → Json.Term → Prop
  | null {line : Nat} : Mirrors (.scalar "null" none .plain line) .null
  | boolean {value : Bool} {line : Nat} :
      Mirrors (.scalar (if value then "true" else "false") none .plain line) (.boolean value)
  | number {text : String} {line : Nat} (htext : Json.Syntax.SharedNumber text.toList) :
      Mirrors (.scalar text none .plain line) (.number text)
  | string {s : ByteString} {line : Nat} :
      Mirrors (.scalar s.text (some .str) .doubleQuoted line) (.string s)
  | array {raw : ByteString} {items : List (Node × Json.Term)} {line : Nat}
      (hitems : ∀ item ∈ items, Mirrors item.1 item.2) :
      Mirrors (.sequence (items.map Prod.fst) .seq line) (.array raw (items.map Prod.snd))
  | object {raw : ByteString} {entries : List Entry} {line : Nat}
      (hkeys : (entries.map fun e => e.key.text).Nodup)
      (hentries : ∀ e ∈ entries, Mirrors e.node e.term) :
      Mirrors (.mapping (entries.map Entry.pair) .map line)
        (.object raw (entries.map Entry.member))

namespace Composer

def Awaits (trail : List Char) (lexemes : List Lexeme) (s : Composer) : Prop :=
  s.lexer.Awaits trail lexemes

/-- The first of them has been looked at. -/
def Shows (trail : List Char) (lexemes : List Lexeme) (s : Composer) : Prop :=
  s.lexer.Shows trail lexemes

end Composer

namespace Compose

open Json.Syntax (Spaced)

variable {s : Composer} {trail : List Char} {lexemes : List Lexeme}

theorem lex_succeeds {read : Lexing α} {post : α → Composer → Prop}
    (hread : Succeeds read s.lexer fun a l => post a { s with lexer := l }) :
    Succeeds (lex read) s post :=
  Succeeds.onPart Composer.lexer (fun s l => { s with lexer := l }) hread

theorem peek_succeeds (htrail : Spaced trail) (hs : s.Awaits trail lexemes) :
    Succeeds peek s fun t u => t.lexeme = lexemes.headD .streamEnd ∧ u.Shows trail lexemes :=
  lex_succeeds ((Lexing.peek_succeeds htrail hs).mono fun _ _ h => h)

theorem advance_succeeds {lexeme : Lexeme} (hs : s.Shows trail (lexeme :: lexemes)) :
    Succeeds advance s fun _ u => u.Awaits trail lexemes :=
  lex_succeeds ((Lexing.advance_succeeds hs).mono fun _ _ h => h)

/-- Lexemes at which a node without properties starts. -/
inductive Opens : Lexeme → Prop
  | scalar {text : String} {style : Style} : Opens (.scalar text style)
  | sequence : Opens .flowSequenceStart
  | mapping : Opens .flowMappingStart

variable {lexeme : Lexeme}

/-- What is looked for at the next token and is not there. -/
theorem absent_succeeds {here : Token → Compose (Option α)} (htrail : Spaced trail)
    (hhere : ∀ line, here ⟨lexeme, line⟩ = pure none) (hs : s.Awaits trail (lexeme :: lexemes)) :
    Succeeds (peek >>= here) s fun found u =>
      found = none ∧ u.Awaits trail (lexeme :: lexemes) := by
  refine (peek_succeeds htrail hs).andThen ?_
  rintro ⟨lexeme', line⟩ u ⟨hlexeme, hu, -⟩
  obtain rfl : lexeme' = lexeme := hlexeme
  rw [hhere]
  exact Succeeds.pure ⟨rfl, hu⟩

theorem properties_succeeds (htrail : Spaced trail) (hopens : Opens lexeme)
    (hs : s.Awaits trail (lexeme :: lexemes)) :
    Succeeds properties s fun p u => (∃ start, p = ⟨none, none, start⟩) ∧
      u.Awaits trail (lexeme :: lexemes) := by
  refine (peek_succeeds htrail hs).andThen ?_
  rintro first u ⟨-, hu, -⟩
  have hanchor : Succeeds anchorHere? u _ :=
    absent_succeeds htrail (fun line => by cases hopens <;> rfl) hu
  refine hanchor.andThen ?_
  rintro _ u ⟨rfl, hu⟩
  have htag : Succeeds tagHere? u _ :=
    absent_succeeds htrail (fun line => by cases hopens <;> rfl) hu
  refine htag.andThen ?_
  rintro _ u ⟨rfl, hu⟩
  exact Succeeds.pure ⟨⟨first.line, rfl⟩, hu⟩

/-- A node without properties has no tag, and its first token is looked at again. -/
theorem open_succeeds (htrail : Spaced trail) (hopens : Opens lexeme)
    (hs : s.Awaits trail (lexeme :: lexemes)) {α : Type}
    {f : Properties → Option Tag → Token → Compose α} {post : α → Composer → Prop}
    (hf : ∀ start line u, u.Shows trail (lexeme :: lexemes) →
      Succeeds (f ⟨none, none, start⟩ none ⟨lexeme, line⟩) u post) :
    Succeeds (do
      let p ← properties
      let tag ← writtenTag p
      let t ← peek
      f p tag t) s post := by
  refine (properties_succeeds htrail hopens hs).andThen ?_
  rintro _ u ⟨⟨start, rfl⟩, hu⟩
  refine Succeeds.bind (Succeeds.pure ?_)
  refine (peek_succeeds htrail hu).andThen ?_
  rintro ⟨lexeme', line⟩ u ⟨hlexeme, hu⟩
  obtain rfl : lexeme' = lexeme := hlexeme
  exact hf start line u hu

variable {fuel : Nat} {block indentless : Bool}

theorem node_scalar (htrail : Spaced trail) {text : String} {style : Style}
    (hs : s.Awaits trail (.scalar text style :: lexemes)) :
    Succeeds (node (fuel + 1) block indentless) s fun n u =>
      (∃ line, n = .scalar text (scalarTag text style) style line) ∧ u.Awaits trail lexemes := by
  rw [node]
  refine (peek_succeeds htrail hs).andThen ?_
  rintro ⟨lexeme, line⟩ u ⟨hlexeme, hu, -⟩
  obtain rfl : lexeme = .scalar text style := hlexeme
  refine open_succeeds htrail .scalar hu fun start line u hu => ?_
  refine (advance_succeeds hu).andThen fun _ u hu => ?_
  exact Succeeds.bind (Succeeds.pure (Succeeds.pure ⟨⟨_, rfl⟩, hu⟩))

theorem node_sequence (htrail : Spaced trail) {post : List Node → Composer → Prop}
    (hs : s.Awaits trail (.flowSequenceStart :: lexemes))
    (hitems : ∀ line u, u.Awaits trail lexemes → Succeeds (flowItems fuel line true []) u post) :
    Succeeds (node (fuel + 1) block indentless) s fun n u =>
      ∃ items line, n = .sequence items .seq line ∧ post items u := by
  rw [node]
  refine (peek_succeeds htrail hs).andThen ?_
  rintro ⟨lexeme, line⟩ u ⟨hlexeme, hu, -⟩
  obtain rfl : lexeme = .flowSequenceStart := hlexeme
  refine open_succeeds htrail .sequence hu fun start line u hu => ?_
  refine (advance_succeeds hu).andThen fun _ u hu => ?_
  refine Succeeds.bind (Succeeds.pure ?_)
  refine (hitems _ u hu).andThen fun items u hu => ?_
  exact Succeeds.bind (Succeeds.pure (Succeeds.pure ⟨items, _, rfl, hu⟩))

theorem node_mapping (htrail : Spaced trail) {post : List (Node × Node) → Composer → Prop}
    (hs : s.Awaits trail (.flowMappingStart :: lexemes))
    (hpairs : ∀ line u, u.Awaits trail lexemes → Succeeds (flowPairs fuel line true []) u post) :
    Succeeds (node (fuel + 1) block indentless) s fun n u =>
      ∃ pairs line, n = .mapping pairs .map line ∧ post pairs u := by
  rw [node]
  refine (peek_succeeds htrail hs).andThen ?_
  rintro ⟨lexeme, line⟩ u ⟨hlexeme, hu, -⟩
  obtain rfl : lexeme = .flowMappingStart := hlexeme
  refine open_succeeds htrail .mapping hu fun start line u hu => ?_
  refine (advance_succeeds hu).andThen fun _ u hu => ?_
  refine Succeeds.bind (Succeeds.pure ?_)
  refine (hpairs _ u hu).andThen fun pairs u hu => ?_
  exact Succeeds.bind (Succeeds.pure (Succeeds.pure ⟨pairs, _, rfl, hu⟩))

/-- Parts with commas between, from the first or from a later one on. -/
def chained (first : Bool) : List (List Lexeme) → List Lexeme
  | [] => []
  | part :: parts => (if first then [] else [.flowEntry]) ++ (part ++ chained false parts)

theorem intercalate_eq_chained (parts : List (List Lexeme)) :
    [Lexeme.flowEntry].intercalate parts = chained true parts := by
  have hcons (part : List Lexeme) (parts : List (List Lexeme)) :
      [Lexeme.flowEntry].intercalate (part :: parts) = part ++ chained false parts := by
    induction parts generalizing part with
    | nil => simp [chained]
    | cons next parts ih => simp [List.intercalate_cons_cons, ih, chained]
  cases parts with
  | nil => rfl
  | cons part parts => exact hcons part parts

theorem exists_opens (t : Json.Term) :
    ∃ lexeme rest, t.lexemes = lexeme :: rest ∧ Opens lexeme := by
  cases t with
  | null | boolean | number | string => exact ⟨_, _, rfl, .scalar⟩
  | array => exact ⟨_, _, rfl, .sequence⟩
  | object => exact ⟨_, _, rfl, .mapping⟩

/-- The tokens of a value are read as a node that mirrors it. -/
structure Composes (trail : List Char) (t : Json.Term) : Prop where
  node {s : Composer} {fuel : Nat} {block indentless : Bool} {lexemes : List Lexeme}
    (hs : s.Awaits trail (t.lexemes ++ lexemes)) (hfuel : t.lexemes.length ≤ fuel) :
    Succeeds (node fuel block indentless) s fun n u => Mirrors n t ∧ u.Awaits trail lexemes

theorem closing_succeeds (htrail : Spaced trail) {closing : Lexeme}
    (hs : s.Awaits trail (closing :: lexemes)) {result : α} {others : Token → Compose α}
    {post : α → Composer → Prop} (hpost : ∀ u, u.Awaits trail lexemes → post result u) :
    Succeeds (do
      let t ← peek
      if t.lexeme = closing then
        advance
        return result
      others t) s post := by
  refine (peek_succeeds htrail hs).andThen ?_
  rintro t u ⟨ht, hu⟩
  rw [if_pos (show t.lexeme = closing from ht)]
  exact (advance_succeeds hu).andThen fun _ u hu => Succeeds.pure (hpost u hu)

theorem separator_succeeds (htrail : Spaced trail) {closing : Lexeme} {first : Bool}
    {rest : List Lexeme} (hclosing : closing ≠ .flowEntry) (hlexeme : lexeme ≠ closing)
    (hs : s.Awaits trail ((if first then [] else [.flowEntry]) ++ lexeme :: rest))
    {done next : Compose α} {start : Nat} {problem : String} {post : α → Composer → Prop}
    (hnext : ∀ u, u.Awaits trail (lexeme :: rest) → Succeeds next u post) :
    Succeeds (do
      let t ← peek
      if t.lexeme = closing then done
      else
        if !first then
          if t.lexeme = .flowEntry then advance
          else fail start t.line problem
        next) s post := by
  refine (peek_succeeds htrail hs).andThen ?_
  rintro ⟨lexeme', line⟩ u ⟨hhead, hu⟩
  cases first with
  | true =>
      obtain rfl : lexeme' = lexeme := hhead
      rw [if_neg hlexeme]
      exact hnext u hu.1
  | false =>
      obtain rfl : lexeme' = .flowEntry := hhead
      rw [if_neg hclosing.symm]
      exact (advance_succeeds hu).andThen fun _ u hu => hnext u hu

theorem flowItems_succeeds (htrail : Spaced trail) {items : List Json.Term}
    (hitems : ∀ t ∈ items, Composes trail t) {start : Nat} {first : Bool} {before : List Node}
    (hs : s.Awaits trail (chained first (items.map Json.Term.lexemes) ++
      .flowSequenceEnd :: lexemes))
    (hfuel : (chained first (items.map Json.Term.lexemes)).length < fuel) :
    Succeeds (flowItems fuel start first before) s fun nodes u =>
      (∃ pairs : List (Node × Json.Term), pairs.map Prod.snd = items ∧
        (∀ pair ∈ pairs, Mirrors pair.1 pair.2) ∧ nodes = before.reverse ++ pairs.map Prod.fst) ∧
      u.Awaits trail lexemes := by
  induction items generalizing s fuel first before with
  | nil =>
      cases fuel with
      | zero => omega
      | succ fuel =>
          rw [flowItems]
          refine closing_succeeds htrail hs fun u hu =>
            ⟨⟨[], rfl, List.forall_mem_nil _, ?_⟩, hu⟩
          simp
  | cons t items ih =>
      obtain ⟨ht, hmore⟩ := List.forall_mem_cons.mp hitems
      obtain ⟨lexeme, rest, hlexemes, hopens⟩ := exists_opens t
      cases fuel with
      | zero => omega
      | succ fuel =>
          rw [List.map_cons, chained, List.length_append, List.length_append] at hfuel
          have hnode (u : Composer) (hu : u.Awaits trail (t.lexemes ++
              (chained false (items.map Json.Term.lexemes) ++ .flowSequenceEnd :: lexemes))) :
              Succeeds (node fuel false false >>= fun item =>
                flowItems fuel start false (item :: before)) u fun nodes u =>
                (∃ pairs : List (Node × Json.Term), pairs.map Prod.snd = t :: items ∧
                  (∀ pair ∈ pairs, Mirrors pair.1 pair.2) ∧
                  nodes = before.reverse ++ pairs.map Prod.fst) ∧ u.Awaits trail lexemes := by
            refine (ht.node hu (by omega)).andThen ?_
            rintro n v ⟨hn, hv⟩
            refine (ih hmore hv ?_).mono ?_
            · have hpos : 0 < t.lexemes.length := by simp [hlexemes]
              omega
            · rintro _ w ⟨⟨pairs, rfl, hpairs, rfl⟩, hw⟩
              exact ⟨⟨(n, t) :: pairs, rfl, List.forall_mem_cons.mpr ⟨hn, hpairs⟩, by simp⟩, hw⟩
          rw [flowItems]
          rw [hlexemes] at hnode
          simp only [List.map_cons, chained, hlexemes, List.append_assoc, List.cons_append] at hs
          refine separator_succeeds htrail (by simp) ?_ hs fun u hu => ?_
          · cases hopens <;> simp
          · refine (peek_succeeds htrail hu).andThen ?_
            rintro ⟨lexeme', line⟩ v ⟨hhead, hv, -⟩
            obtain rfl : lexeme' = lexeme := hhead
            have hv' := hnode v hv
            cases hopens <;> exact hv'

theorem flowValue_succeeds (htrail : Spaced trail) {t : Json.Term} (ht : Composes trail t)
    (hs : s.Awaits trail (.value :: (t.lexemes ++ lexemes))) (hfuel : t.lexemes.length < fuel) :
    Succeeds (flowValue fuel) s fun n u => Mirrors n t ∧ u.Awaits trail lexemes := by
  obtain ⟨lexeme, rest, hlexemes, hopens⟩ := exists_opens t
  cases fuel with
  | zero => omega
  | succ fuel =>
      rw [flowValue]
      refine (peek_succeeds htrail hs).andThen ?_
      rintro ⟨lexeme', line⟩ u ⟨hhead, hu⟩
      obtain rfl : lexeme' = .value := hhead
      refine (advance_succeeds hu).andThen fun _ v hv => ?_
      refine (peek_succeeds htrail hv).andThen ?_
      rintro ⟨lexeme', line⟩ w ⟨hhead, hw, -⟩
      have hnode : Succeeds (node fuel false false) w fun n u =>
          Mirrors n t ∧ u.Awaits trail lexemes := ht.node hw (Nat.le_of_lt_succ hfuel)
      rw [hlexemes] at hhead
      obtain rfl : lexeme' = lexeme := hhead
      cases hopens <;> exact hnode

theorem flowPairs_succeeds (htrail : Spaced trail) {members : List (ByteString × Json.Term)}
    (hmembers : ∀ m ∈ members, Composes trail m.2) {start : Nat} {first : Bool}
    {before : List (Node × Node)}
    (hs : s.Awaits trail (chained first (members.map Json.Term.pairLexemes) ++
      .flowMappingEnd :: lexemes))
    (hfuel : (chained first (members.map Json.Term.pairLexemes)).length < fuel) :
    Succeeds (flowPairs fuel start first before) s fun pairs u =>
      (∃ entries : List Entry, entries.map Entry.member = members ∧
        (∀ e ∈ entries, Mirrors e.node e.term) ∧
        pairs = before.reverse ++ entries.map Entry.pair) ∧
      u.Awaits trail lexemes := by
  induction members generalizing s fuel first before with
  | nil =>
      cases fuel with
      | zero => omega
      | succ fuel =>
          rw [flowPairs]
          refine closing_succeeds htrail hs fun u hu =>
            ⟨⟨[], rfl, List.forall_mem_nil _, ?_⟩, hu⟩
          simp
  | cons m members ih =>
      obtain ⟨key, t⟩ := m
      obtain ⟨ht, hmore⟩ := List.forall_mem_cons.mp hmembers
      replace ht : Composes trail t := ht
      cases fuel with
      | zero => omega
      | succ fuel =>
          simp only [List.map_cons, chained, Json.Term.pairLexemes, List.length_append,
            List.length_cons] at hfuel
          simp only [List.map_cons, chained, Json.Term.pairLexemes, List.append_assoc,
            List.cons_append] at hs
          rw [flowPairs]
          refine separator_succeeds htrail (by simp) (by simp) hs fun u hu => ?_
          refine (peek_succeeds htrail hu).andThen ?_
          rintro ⟨lexeme, line⟩ v ⟨hhead, hv⟩
          obtain rfl : lexeme = .key := hhead
          refine (advance_succeeds hv).andThen fun _ v hv => ?_
          refine (peek_succeeds htrail hv).andThen ?_
          rintro ⟨lexeme, line'⟩ v ⟨hhead, hv, -⟩
          obtain rfl : lexeme = .scalar key.text .doubleQuoted := hhead
          obtain ⟨fuel, rfl⟩ : ∃ less, fuel = less + 1 := ⟨fuel - 1, by omega⟩
          refine (node_scalar htrail hv).andThen ?_
          rintro _ v ⟨⟨keyLine, rfl⟩, hv⟩
          refine (flowValue_succeeds htrail ht hv (by omega)).andThen ?_
          rintro n v ⟨hn, hv⟩
          refine (ih hmore hv (by omega)).mono ?_
          rintro _ w ⟨⟨entries, rfl, hentries, rfl⟩, hw⟩
          refine ⟨⟨⟨key, keyLine, n, t⟩ :: entries, rfl, List.forall_mem_cons.mpr ⟨hn, hentries⟩,
            ?_⟩, hw⟩
          simp [Entry.pair, scalarTag]

theorem composes_of_scalar {t : Json.Term} {text : String} {style : Style}
    (hlexemes : t.lexemes = [.scalar text style]) (htrail : Spaced trail)
    (hmirrors : ∀ line, Mirrors (.scalar text (scalarTag text style) style line) t) :
    Composes trail t := by
  refine ⟨fun {s fuel block indentless lexemes} hs hfuel => ?_⟩
  rw [hlexemes] at hs hfuel
  obtain ⟨fuel, rfl⟩ := Nat.exists_eq_add_of_le' hfuel
  refine (node_scalar htrail hs).mono ?_
  rintro _ u ⟨⟨line, rfl⟩, hu⟩
  exact ⟨hmirrors line, hu⟩

theorem scalarTag_plain {text : String} (htext : text ≠ "<<") : scalarTag text .plain = none := by
  rw [scalarTag, if_pos rfl, if_neg htext]

theorem composes_number {text : List Char} (htext : Json.Syntax.SharedNumber text)
    (htrail : Spaced trail) : Composes trail (.number (String.ofList text)) := by
  have hmerge : String.ofList text ≠ "<<" := by
    intro heq
    have hmem : '<' ∈ text := by
      rw [← @String.toList_ofList text, heq]
      decide
    exact absurd (mem_numberText htext.number hmem) (by decide)
  refine composes_of_scalar rfl htrail fun line => ?_
  rw [scalarTag_plain hmerge]
  exact .number (by rwa [String.toList_ofList])

theorem composes_array {raw : ByteString} {items : List Json.Term}
    (hitems : ∀ t ∈ items, Composes trail t) (htrail : Spaced trail) :
    Composes trail (.array raw items) := by
  refine ⟨fun {s fuel block indentless lexemes} hs hfuel => ?_⟩
  rw [Json.Term.lexemes, Json.Term.itemLexemes_eq_map, intercalate_eq_chained] at hs hfuel
  simp only [List.cons_append, List.append_assoc, List.nil_append] at hs
  simp only [List.length_cons, List.length_append] at hfuel
  obtain ⟨fuel, rfl⟩ : ∃ less, fuel = less + 1 := ⟨fuel - 1, by omega⟩
  refine (node_sequence htrail hs fun line u hu =>
    flowItems_succeeds htrail hitems hu (by omega)).mono ?_
  rintro _ u ⟨nodes, line, rfl, ⟨pairs, rfl, hmirrors, rfl⟩, hu⟩
  exact ⟨.array hmirrors, hu⟩

theorem composes_object {raw : ByteString} {members : List (ByteString × Json.Term)}
    (hdistinct : (members.map fun m => m.1.text).Nodup)
    (hmembers : ∀ m ∈ members, Composes trail m.2) (htrail : Spaced trail) :
    Composes trail (.object raw members) := by
  refine ⟨fun {s fuel block indentless lexemes} hs hfuel => ?_⟩
  rw [Json.Term.lexemes, Json.Term.memberLexemes_eq_map, intercalate_eq_chained] at hs hfuel
  simp only [List.cons_append, List.append_assoc, List.nil_append] at hs
  simp only [List.length_cons, List.length_append] at hfuel
  obtain ⟨fuel, rfl⟩ : ∃ less, fuel = less + 1 := ⟨fuel - 1, by omega⟩
  refine (node_mapping htrail hs fun line u hu =>
    flowPairs_succeeds htrail hmembers hu (by omega)).mono ?_
  rintro _ u ⟨nodes, line, rfl, ⟨entries, rfl, hmirrors, rfl⟩, hu⟩
  rw [List.map_map] at hdistinct
  exact ⟨.object hdistinct hmirrors, hu⟩

open Json.Syntax (Shared SharedDocument Member) in
theorem composes_of_shared {bound : Nat} {core : List Char} {t : Json.Term}
    (hshared : Shared bound core t) (htrail : Spaced trail) : Composes trail t := by
  induction hshared with
  | null => exact composes_of_scalar rfl htrail fun line => .null
  | true => exact composes_of_scalar rfl htrail fun line => @Mirrors.boolean true line
  | false => exact composes_of_scalar rfl htrail fun line => @Mirrors.boolean false line
  | number htext => exact composes_number htext htrail
  | string => exact composes_of_scalar rfl htrail fun line => .string
  | array _ _ _ ih => exact composes_array (List.forall_mem_map.mpr ih) htrail
  | @object _ members _ _ _ hkeys _ _ ih =>
      have hnames : (members.map Member.pair).map (fun m => m.1.text) =
          (members.map Member.key).map String.ofList := by
        simp [Member.pair, Function.comp_def, ByteString.text_ofChars]
      refine composes_object ?_ (List.forall_mem_map.mpr ih) htrail
      rw [hnames]
      exact List.Pairwise.map _ (fun _ _ hne heq => hne (String.ofList_injective heq)) hkeys

theorem Composes.object {inner : ByteString} {members : List (ByteString × Json.Term)}
    (hcomposes : Composes trail (.object inner members)) (raw : ByteString) :
    Composes trail (.object raw members) := by
  refine ⟨fun hs hfuel => (hcomposes.node hs hfuel).mono ?_⟩
  rintro n u ⟨hn, hu⟩
  cases hn with
  | object hkeys hentries => exact ⟨.object hkeys hentries, hu⟩

theorem document_succeeds (htrail : Spaced trail) {raw : ByteString}
    {members : List (ByteString × Json.Term)} (hcomposes : Composes trail (.object raw members))
    (hs : s.Awaits trail (Json.Term.object raw members).lexemes)
    (hfuel : (Json.Term.object raw members).lexemes.length ≤ fuel) :
    Succeeds (document fuel) s fun root _ =>
      ∃ n, root = some n ∧ Mirrors n (.object raw members) := by
  refine (peek_succeeds htrail hs).andThen ?_
  rintro ⟨lexeme, line⟩ u ⟨hhead, hu, -⟩
  obtain rfl : lexeme = .flowMappingStart := hhead
  rw [← List.append_nil (Json.Term.lexemes _)] at hu
  refine (hcomposes.node hu hfuel).andThen ?_
  rintro n v ⟨hn, hv⟩
  exact (peek_succeeds htrail hv).andThen fun _ _ _ => Succeeds.pure ⟨n, rfl, hn⟩

end Compose

open Json.Syntax (Shared SharedDocument) in
/-- A shared text has one node tree, of the shape of its value. -/
theorem Node.ofSource_of_document {cs : List Char} {raw : ByteString}
    {members : List (ByteString × Json.Term)}
    (hdocument : SharedDocument cs (.object raw members)) :
    ∃ n, Node.ofSource (.ofBytes (Text.ofChars cs)) = .ok (some n) ∧
      Mirrors n (.object raw members) := by
  obtain ⟨trail, htrail, hlength, hawaits⟩ := exists_awaits_of_document hdocument
  obtain ⟨item, -, -, inner, hterm, hshared⟩ := hdocument.exists_object
  rw [hterm] at hshared
  have hcomposes := (Compose.composes_of_shared hshared htrail).object raw
  have hfuel : (Json.Term.object raw members).lexemes.length ≤
      8 * (Source.ofBytes (Text.ofChars cs)).characters.length + 64 := by
    omega
  obtain ⟨_, _, hrun, n, rfl, hn⟩ := Compose.document_succeeds htrail hcomposes hawaits hfuel
    (s := { lexer := .start (.ofBytes (Text.ofChars cs)) })
  refine ⟨n, ?_, hn⟩
  rw [Node.ofSource, StateT.run'_eq, hrun]
  rfl

end ScriptTree.Yaml
