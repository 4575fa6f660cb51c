import ScriptTree.Proofs.Yaml.Fetch

/-!
The tokens of a whole text. Tokens are read as they are asked for, some of them ahead, and
whatever has been read at a time, what was asked for is the next token of the text.
-/

namespace ScriptTree.Yaml

open Json.Syntax (SharedString Spaced keyReach)

/-- The marks of a text inside of brackets. -/
inductive Mark where
  | opening (square : Bool)
  | closing (square : Bool)
  | comma
  | colon
  | key (text cs : List Char)
  | quoted (text cs : List Char)
  | plain (text : List Char)

namespace Mark

def text : Mark → List Char
  | opening square => [if square then '[' else '\x7b']
  | closing square => [if square then ']' else '\x7d']
  | comma => [',']
  | colon => [':']
  | key text _ | quoted text _ => '"' :: (text ++ ['"'])
  | plain text => text

def lexemes : Mark → List Lexeme
  | opening square => [if square then .flowSequenceStart else .flowMappingStart]
  | closing square => [if square then .flowSequenceEnd else .flowMappingEnd]
  | comma => [.flowEntry]
  | colon => [.value]
  | key _ cs => [.key, .scalar (String.ofList cs) .doubleQuoted]
  | quoted _ cs => [.scalar (String.ofList cs) .doubleQuoted]
  | plain text => [.scalar (String.ofList text) .plain]

/-- Marks that end a plain scalar. -/
def isEnd : Mark → Bool
  | closing _ | comma => true
  | _ => false

theorem lexemes_ne_nil (mark : Mark) : mark.lexemes ≠ [] := by
  cases mark <;> simp [lexemes]

theorem exists_closer_of_isEnd {mark : Mark} (hend : mark.isEnd = true) :
    ∃ x more, mark.text = x :: more ∧ isCloser x = true := by
  cases mark with
  | closing square =>
      refine ⟨_, _, rfl, ?_⟩
      cases square <;> decide
  | comma => exact ⟨_, _, rfl, by decide⟩
  | _ => cases hend

end Mark

/-- Marks with the blanks before each. -/
abbrev Spots := List (List Char × Mark)

namespace Spots

def text (spots : Spots) : List Char := spots.flatMap fun spot => spot.1 ++ spot.2.text

def lexemes (spots : Spots) : List Lexeme := spots.flatMap fun spot => spot.2.lexemes

/-- Marks that follow one another inside of so many brackets up to the last closing one; the
flag tells whether a key may be the first. -/
inductive Runs : Nat → Bool → Spots → Prop
  | done {fresh : Bool} : Runs 0 fresh []
  | opening {depth : Nat} {fresh square : Bool} {lead : List Char} {rest : Spots}
      (hlead : Spaced lead) (hdepth : depth < Lexer.depthLimit)
      (hrest : Runs (depth + 1) true rest) : Runs depth fresh ((lead, .opening square) :: rest)
  | closing {depth : Nat} {fresh square : Bool} {lead : List Char} {rest : Spots}
      (hlead : Spaced lead) (hrest : Runs depth false rest) :
      Runs (depth + 1) fresh ((lead, .closing square) :: rest)
  | comma {depth : Nat} {fresh : Bool} {lead : List Char} {rest : Spots}
      (hlead : Spaced lead) (hrest : Runs (depth + 1) true rest) :
      Runs (depth + 1) fresh ((lead, .comma) :: rest)
  | key {depth : Nat} {lead text cs gap : List Char} {rest : Spots} (hlead : Spaced lead)
      (hstring : SharedString text cs) (hgap : ∀ c ∈ gap, c = ' ')
      (hreach : text.length + 2 + gap.length ≤ keyReach) (hrest : Runs (depth + 1) false rest) :
      Runs (depth + 1) true ((lead, .key text cs) :: (gap, .colon) :: rest)
  | quoted {depth : Nat} {fresh : Bool} {lead text cs : List Char} {rest : Spots}
      (hlead : Spaced lead) (hstring : SharedString text cs) (hrest : Runs (depth + 1) false rest) :
      Runs (depth + 1) fresh ((lead, .quoted text cs) :: rest)
  | plain {depth : Nat} {fresh : Bool} {lead text gap : List Char} {mark : Mark} {rest : Spots}
      (hlead : Spaced lead) (hword : Word text) (hgap : Spaced gap) (hend : mark.isEnd = true)
      (hrest : Runs (depth + 1) false ((gap, mark) :: rest)) :
      Runs (depth + 1) fresh ((lead, .plain text) :: (gap, mark) :: rest)

theorem text_cons (lead : List Char) (mark : Mark) (rest : Spots) :
    text ((lead, mark) :: rest) = lead ++ (mark.text ++ text rest) := by
  simp [text]

theorem lexemes_cons (lead : List Char) (mark : Mark) (rest : Spots) :
    lexemes ((lead, mark) :: rest) = mark.lexemes ++ lexemes rest := by
  simp [lexemes]

theorem head?_dropWhile_lead {lead tail : List Char} (hlead : Spaced lead)
    (htail : tail.head?.all Lexing.isSolid = true) :
    ((lead ++ tail).dropWhile isGap).head? ≠ some '#' := by
  induction lead with
  | nil =>
      cases tail with
      | nil => simp
      | cons y tail =>
          have hy : Lexing.isSolid y = true := by simpa using htail
          simp only [Lexing.isSolid, Bool.not_eq_true', Bool.or_eq_false_iff,
            decide_eq_false_iff_not] at hy
          simp [hy]
  | cons x lead ih =>
      rcases isBreak_of_spaced hlead List.mem_cons_self with rfl | ⟨hgap, hbreak⟩
      · rw [List.cons_append, List.dropWhile_cons, if_pos (by decide)]
        exact ih (hlead.of_append [' '])
      · have hx : x ≠ '#' := by
          rintro rfl
          exact absurd hbreak (by decide)
        simp [hgap, hx]

theorem isSolid_of_word {text : List Char} (hword : Word text) :
    ∃ x rest, text = x :: rest ∧ Lexing.isSolid x = true := by
  obtain ⟨x, rest, rfl, hstart⟩ := hword.start
  refine ⟨x, rest, rfl, ?_⟩
  have hplain := hword.plain x List.mem_cons_self
  simp only [isPlainChar, Bool.not_eq_true', Bool.or_eq_false_iff] at hplain
  have hhash : x ≠ '#' := by
    rcases hstart with hstart | ⟨rfl, -⟩
    · exact ne_of_startsWord hstart (by decide)
    · decide
  simp [Lexing.isSolid, hplain, hhash]

/-- What follows is blanks, and then a mark or the end. -/
theorem Runs.exists_lead {depth : Nat} {fresh : Bool} {spots : Spots}
    (hruns : Runs depth fresh spots) {trail : List Char} (htrail : Spaced trail) :
    ∃ lead tail, text spots ++ trail = lead ++ tail ∧ Spaced lead ∧
      tail.head?.all Lexing.isSolid = true := by
  cases hruns with
  | done => exact ⟨trail, [], by simp [text], htrail, rfl⟩
  | @opening _ _ square lead rest hlead =>
      refine ⟨lead, _, by rw [text_cons, List.append_assoc], hlead, ?_⟩
      cases square <;> rfl
  | @closing _ _ square lead rest hlead =>
      refine ⟨lead, _, by rw [text_cons, List.append_assoc], hlead, ?_⟩
      cases square <;> rfl
  | comma hlead => exact ⟨_, _, by rw [text_cons, List.append_assoc], hlead, rfl⟩
  | key hlead => exact ⟨_, _, by rw [text_cons, List.append_assoc], hlead, rfl⟩
  | quoted hlead => exact ⟨_, _, by rw [text_cons, List.append_assoc], hlead, rfl⟩
  | @plain _ _ lead text _ _ _ hlead hword =>
      obtain ⟨x, rest, rfl, hsolid⟩ := isSolid_of_word hword
      refine ⟨lead, _, by rw [text_cons, List.append_assoc], hlead, ?_⟩
      simpa [Mark.text] using hsolid

theorem Runs.no_comment {depth : Nat} {fresh : Bool} {spots : Spots}
    (hruns : Runs depth fresh spots) {trail : List Char} (htrail : Spaced trail) :
    ((text spots ++ trail).dropWhile isGap).head? ≠ some '#' := by
  obtain ⟨lead, tail, htext, hlead, htail⟩ := hruns.exists_lead htrail
  rw [htext]
  exact head?_dropWhile_lead hlead htail

theorem Runs.without_blanks {depth : Nat} {fresh : Bool} {gap : List Char} {mark : Mark}
    {rest : Spots} (hruns : Runs depth fresh ((gap, mark) :: rest)) (hend : mark.isEnd = true) :
    Runs depth fresh (([], mark) :: rest) := by
  have hnil : Spaced [] := nofun
  cases hruns with
  | closing _ hrest => exact .closing hnil hrest
  | comma _ hrest => exact .comma hnil hrest
  | opening => cases hend
  | key => cases hend
  | quoted => cases hend
  | plain => cases hend

end Spots

/-- No directive and no end of a document begins like a word. -/
theorem Word.no_document {x : Char} {more : List Char} (hword : Word (x :: more)) :
    x ≠ '%' ∧ x ≠ '.' ∧ (x = '-' → ∃ y tail, more = y :: tail ∧ y ≠ '-') := by
  obtain ⟨first, left, heq, hstart⟩ := hword.start
  obtain ⟨rfl, rfl⟩ := List.cons.inj heq
  rcases hstart with hstart | ⟨rfl, y, tail, rfl, hdigit⟩
  · have hne {y : Char} (hy : startsWord y = false) : x ≠ y := ne_of_startsWord hstart hy
    exact ⟨hne (by decide), hne (by decide), fun hx => absurd hx (hne (by decide))⟩
  · refine ⟨by decide, by decide, fun _ => ⟨y, tail, rfl, ?_⟩⟩
    rintro rfl
    exact absurd hdigit (by decide)

namespace Lexer

/-- How far a lexer has come in a text with the given lexemes, and a bound on the tokens that
are left to read. -/
inductive Stage (all : List Lexeme) (trail : List Char) : Nat → Lexer → Prop
  | ready {l : Lexer} {spots : Spots} {fresh : Bool} (hsound : l.Sound)
      (hrest : l.cursor.rest = spots.text ++ trail) (hruns : spots.Runs l.depth fresh)
      (hfresh : fresh = true → l.keyAllowed = true) (htaken : l.taken ≤ l.lexemes.length)
      (hall : all = l.lexemes ++ spots.lexemes) :
      Stage all trail (l.cursor.rest.length + 1) l
  | pending {l : Lexer} {spots : Spots} {settled : List Lexeme} {name : String} {width : Nat}
      {key : PossibleKey} {gap : List Char} (hsound : l.Sound) (hdepth : 0 < l.depth)
      (hpending : Lexing.Pending l settled name width key) (hgap : ∀ c ∈ gap, c = ' ')
      (hreach : width + gap.length ≤ keyReach)
      (hrest : l.cursor.rest = gap ++ ':' :: (spots.text ++ trail))
      (hruns : spots.Runs l.depth false)
      (hall : all = settled ++ [.key, .scalar name .doubleQuoted, .value] ++ spots.lexemes) :
      Stage all trail (l.cursor.rest.length + 1) l
  | ended {l : Lexer} {n : Nat} (hsound : l.Sound) (hrest : l.cursor.rest = [])
      (hdepth : l.depth = 0) (hkeys : ∀ key ∈ l.keys, key.possible = false)
      (htaken : l.taken ≤ all.length)
      (hall : l.lexemes = all ++ List.replicate (n + 1) .streamEnd) : Stage all trail 0 l

variable {l k : Lexer} {all : List Lexeme} {trail : List Char}

def Advances (all : List Lexeme) (trail : List Char) (left : Nat) (l m : Lexer) : Prop :=
  ∃ fewer, Stage all trail fewer m ∧ (fewer < left ∨ left = 0 ∧ fewer = 0) ∧ m.taken = l.taken ∧
    l.lexemes.length < m.lexemes.length

theorem advances_of_passed {text : List Char} {added : List Lexeme} {spots : Spots} {fresh : Bool}
    (hpassed : l.Passed text added k) (htext : text ≠ []) (hadded : added ≠ [])
    (hrest : l.cursor.rest = text ++ (spots.text ++ trail)) (hruns : spots.Runs k.depth fresh)
    (hfresh : fresh = true → k.keyAllowed = true) (htaken : l.taken ≤ l.lexemes.length)
    (hall : all = l.lexemes ++ (added ++ spots.lexemes)) :
    Advances all trail (l.cursor.rest.length + 1) l k := by
  have hlength : l.lexemes.length < k.lexemes.length := by
    have hpos := List.length_pos_iff.mpr hadded
    rw [hpassed.lexemes, List.length_append]
    omega
  refine ⟨k.cursor.rest.length + 1, .ready hpassed.sound (hpassed.reach.rest_of hrest) hruns hfresh
    ?_ ?_, .inl ?_, hpassed.taken, hlength⟩
  · rw [hpassed.taken]
    omega
  · rw [hall, hpassed.lexemes, List.append_assoc]
  · have hpos := List.length_pos_iff.mpr htext
    rw [hpassed.reach.rest, List.length_append]
    omega

theorem Passed.of_reaches {text : List Char} {added : List Lexeme} (hpassed : l.Passed text added k)
    {c : Cursor} (hc : k.cursor.Reaches [] c) : l.Passed text added { k with cursor := c } := by
  refine ⟨hpassed.sound.of_reaches hc, ?_, hpassed.taken, hpassed.lexemes⟩
  simpa using hpassed.reach.trans hc

end Lexer

namespace Lexing

open Lexer (Stage Advances advances_of_passed)

variable {l : Lexer} {all : List Lexeme} {trail : List Char}

theorem fetch_mark (htrail : Spaced trail) (hsound : l.Sound) (passed : List Char)
    (added : List Lexeme) {lead : List Char} {rest : Spots}
    (hrest : l.cursor.rest = lead ++ (passed ++ (rest.text ++ trail))) (hlead : Spaced lead)
    {x : Char} {more : List Char} (hfirst : passed = x :: more) (hsolid : isSolid x = true)
    (hstart : x ≠ '%' ∧ x ≠ '.' ∧ (x = '-' → ∃ y tail, more = y :: tail ∧ y ≠ '-'))
    (hadded : added ≠ []) {depth : Nat} {fresh : Bool} (hruns : rest.Runs depth fresh)
    (htaken : l.taken ≤ l.lexemes.length) (hall : all = l.lexemes ++ (added ++ rest.lexemes))
    (hfetch : ∀ m : Lexer, l.Passed lead [] m → m.depth = l.depth →
      m.cursor.rest = passed ++ (rest.text ++ trail) →
      Succeeds (fetchAt x) m fun _ k => m.Passed passed added k ∧ k.depth = depth ∧
        (fresh = true → k.keyAllowed = true)) :
    Succeeds fetch l fun _ m => Advances all trail (l.cursor.rest.length + 1) l m := by
  have hhead : l.cursor.rest = lead ++ x :: (more ++ (rest.text ++ trail)) := by
    rw [hrest, hfirst]
    rfl
  have hdash : x = '-' → (more ++ (rest.text ++ trail)).head? ≠ some '-' := by
    intro hx
    obtain ⟨y, tail, rfl, hy⟩ := hstart.2.2 hx
    simpa using hy
  refine fetch_succeeds hsound hhead hlead hsolid ⟨hstart.1, hstart.2.1, hdash⟩
    fun m hm hmkeeps => ?_
  have hmrest := hm.reach.rest_of hrest
  refine (hfetch m hm hmkeeps.depth hmrest).mono ?_
  rintro _ k ⟨hk, rfl, hkallowed⟩
  refine ⟨hk.sound.clean, ?_, fun c hc => ?_⟩
  · rw [hk.reach.rest_of hmrest]
    exact hruns.no_comment htrail
  · refine advances_of_passed ((hm.trans hk).of_reaches hc) ?_ hadded ?_ hruns hkallowed htaken hall
    · simp [hfirst]
    · rw [hrest, List.append_assoc]

/-- Outside of all brackets there is one key at most. -/
theorem possible_of_head (hsound : l.Sound) (hdepth : l.depth = 0)
    (hkey : ∀ key ∈ l.keys.head?, key.possible = false) : ∀ key ∈ l.keys, key.possible = false := by
  obtain ⟨key, keys, hkeys⟩ := hsound.exists_keys
  have hlength := hsound.keys
  rw [hdepth, hkeys, List.length_cons] at hlength
  obtain rfl := List.length_eq_zero_iff.mp (Nat.succ.inj hlength)
  rw [hkeys] at hkey ⊢
  simpa using hkey

theorem fetch_spot (htrail : Spaced trail) (hsound : l.Sound) {lead : List Char} {mark : Mark}
    {rest : Spots} (hrest : l.cursor.rest = Spots.text ((lead, mark) :: rest) ++ trail)
    (hlead : Spaced lead) {x : Char} {more : List Char} (hfirst : mark.text = x :: more)
    (hsolid : isSolid x = true) (hstart : x ≠ '%' ∧ x ≠ '.' ∧ x ≠ '-') {depth : Nat} {fresh : Bool}
    (hruns : rest.Runs depth fresh) (htaken : l.taken ≤ l.lexemes.length)
    (hall : all = l.lexemes ++ Spots.lexemes ((lead, mark) :: rest))
    (hfetch : ∀ m : Lexer, m.Sound → m.depth = l.depth →
      m.cursor.rest = mark.text ++ (rest.text ++ trail) →
      Succeeds (fetchAt x) m fun _ k => m.Passed mark.text mark.lexemes k ∧ k.depth = depth ∧
        (fresh = true → k.keyAllowed = true)) :
    Succeeds fetch l fun _ m => Advances all trail (l.cursor.rest.length + 1) l m := by
  rw [Spots.text_cons, List.append_assoc, List.append_assoc] at hrest
  rw [Spots.lexemes_cons] at hall
  exact fetch_mark htrail hsound mark.text mark.lexemes hrest hlead hfirst hsolid
    ⟨hstart.1, hstart.2.1, fun hx => absurd hx hstart.2.2⟩ mark.lexemes_ne_nil hruns htaken hall
    fun m hm => hfetch m hm.sound

theorem fetch_done (htrail : Spaced trail) (hsound : l.Sound) (hdepth : l.depth = 0)
    (hrest : l.cursor.rest = trail) (htaken : l.taken ≤ l.lexemes.length) :
    Succeeds fetch l fun _ m => Advances l.lexemes trail (l.cursor.rest.length + 1) l m := by
  refine (fetch_end hsound hrest htrail).mono ?_
  rintro _ m ⟨hm, hmrest, hmtaken, hmlexemes, hmdepth, hmkey⟩
  have hkeys := possible_of_head hm (hmdepth.trans hdepth) hmkey
  have hended : Stage l.lexemes trail 0 m := by
    refine .ended (n := 0) hm hmrest (hmdepth.trans hdepth) hkeys ?_ ?_
    · rw [hmtaken]
      exact htaken
    · rw [hmlexemes]
      rfl
  refine ⟨0, hended, .inl (by omega), hmtaken, ?_⟩
  rw [hmlexemes]
  simp

theorem keyHere_place {m : Lexer} {text : List Char} (hm : l.Passed text [] m) :
    (keyHere m).place = l.lexemes.length := by
  have hlexemes := congrArg List.length hm.lexemes
  rw [m.length_lexemes, List.append_nil] at hlexemes
  exact hlexemes

/-- A quoted string that was just read may be a key. -/
theorem pending_behind_quoted {m k : Lexer} {lead text cs : List Char}
    (hm : l.Passed lead [] m)
    (hk : m.Passed ('"' :: (text ++ ['"'])) [.scalar (String.ofList cs) .doubleQuoted] k)
    (hstring : SharedString text cs) (hkey : k.keys.head? = some (keyHere m))
    (htaken : l.taken ≤ l.lexemes.length) {c : Cursor} (hc : k.cursor.Reaches [] c) :
    Pending { k with cursor := c } l.lexemes (String.ofList cs) (text.length + 2) (keyHere m) := by
  have hpassed := (hm.trans hk).of_reaches hc
  have hreach := hk.reach.trans hc
  refine ⟨hpassed.lexemes, ?_, hkey, rfl, keyHere_place hm, ?_, ?_⟩
  · rw [hpassed.taken]
    exact htaken
  · change c.index = m.cursor.index + (text.length + 2)
    rw [hreach.index]
    simp
  · refine (hreach.straight ?_).1
    rw [List.append_nil]
    exact isBreak_of_sharedString hstring

theorem fetch_key {lead text cs gap : List Char} {rest : Spots} (hlead : Spaced lead)
    (hstring : SharedString text cs) (hgap : ∀ c ∈ gap, c = ' ')
    (hreach : text.length + 2 + gap.length ≤ keyReach) (hsound : l.Sound) (hdepth : 0 < l.depth)
    (hrest : l.cursor.rest = Spots.text ((lead, .key text cs) :: (gap, .colon) :: rest) ++ trail)
    (hruns : rest.Runs l.depth false) (hallowed : l.keyAllowed = true)
    (htaken : l.taken ≤ l.lexemes.length)
    (hall : all = l.lexemes ++ Spots.lexemes ((lead, .key text cs) :: (gap, .colon) :: rest)) :
    Succeeds fetch l fun _ m => Advances all trail (l.cursor.rest.length + 1) l m := by
  have hquoted : l.cursor.rest =
      lead ++ '"' :: (text ++ '"' :: (gap ++ ':' :: (rest.text ++ trail))) := by
    rw [hrest, Spots.text_cons, Spots.text_cons]
    simp [Mark.text]
  refine fetch_succeeds hsound hquoted hlead (by decide) (by simp)
    fun m hm hmkeeps => fetchAt_quote ?_
  have hmrest := hm.reach.rest_of hquoted
  refine (fetchQuoted_succeeds hm.sound hmrest hstring).mono ?_
  rintro _ k ⟨hk, hkdepth, hkey⟩
  have hkey := hkey (hmkeeps.keyAllowed hallowed)
  have hkrest : k.cursor.rest = gap ++ ':' :: (rest.text ++ trail) := by
    have hsplit : m.cursor.rest =
        '"' :: (text ++ ['"']) ++ (gap ++ ':' :: (rest.text ++ trail)) := by
      simp [hmrest]
    exact hk.reach.rest_of hsplit
  refine ⟨hk.sound.clean, ?_, fun c hc => ?_⟩
  · rw [hkrest]
    exact Spots.head?_dropWhile_lead (fun x hx => .inl (hgap x hx)) rfl
  · have hpassed := (hm.trans hk).of_reaches hc
    have hpending := pending_behind_quoted hm hk hstring hkey htaken hc
    have hsame : k.depth = l.depth := hkdepth.trans hmkeeps.depth
    refine ⟨_, .pending hpassed.sound (hsame ▸ hdepth) hpending hgap hreach (hc.same.trans hkrest)
      (hsame ▸ hruns) ?_, .inl ?_, hpassed.taken, ?_⟩
    · rw [hall, Spots.lexemes_cons, Spots.lexemes_cons]
      simp [Mark.lexemes]
    · have hlength := congrArg List.length hpassed.reach.rest
      simp only [List.length_append, List.length_cons] at hlength ⊢
      omega
    · rw [hpassed.lexemes]
      simp

/-- The blanks before the next mark belong to a plain scalar. -/
theorem fetch_plain (htrail : Spaced trail) {lead word gap : List Char} {mark : Mark} {rest : Spots}
    (hlead : Spaced lead) (hword : Word word) (hgap : Spaced gap) (hend : mark.isEnd = true)
    (hsound : l.Sound) (hdepth : 0 < l.depth)
    (hrest : l.cursor.rest = Spots.text ((lead, .plain word) :: (gap, mark) :: rest) ++ trail)
    (hruns : Spots.Runs l.depth false ((gap, mark) :: rest)) (htaken : l.taken ≤ l.lexemes.length)
    (hall : all = l.lexemes ++ Spots.lexemes ((lead, .plain word) :: (gap, mark) :: rest)) :
    Succeeds fetch l fun _ m => Advances all trail (l.cursor.rest.length + 1) l m := by
  obtain ⟨y, after, hmark, hy⟩ := Mark.exists_closer_of_isEnd hend
  obtain ⟨x, more, rfl, hsolid⟩ := Spots.isSolid_of_word hword
  have hpassed : l.cursor.rest =
      lead ++ ((x :: more ++ gap) ++ (Spots.text (([], mark) :: rest) ++ trail)) := by
    rw [hrest, Spots.text_cons, Spots.text_cons, Spots.text_cons]
    simp [Mark.text]
  have hall' : all = l.lexemes ++ ((Mark.plain (x :: more)).lexemes ++
      Spots.lexemes (([], mark) :: rest)) := by
    rw [hall, Spots.lexemes_cons, Spots.lexemes_cons, Spots.lexemes_cons]
  refine fetch_mark htrail hsound (x :: more ++ gap) (Mark.plain (x :: more)).lexemes hpassed hlead
    rfl hsolid ?_ (Mark.lexemes_ne_nil _) (hruns.without_blanks hend) htaken hall'
    fun m hm hmdepth hmrest => ?_
  · obtain ⟨hpercent, hdot, hdash⟩ := hword.no_document
    refine ⟨hpercent, hdot, fun hx => ?_⟩
    obtain ⟨y, tail, rfl, hy⟩ := hdash hx
    exact ⟨y, tail ++ gap, rfl, hy⟩
  · have hword' : m.cursor.rest =
        x :: more ++ (gap ++ y :: (after ++ (rest.text ++ trail))) := by
      rw [hmrest, Spots.text_cons, hmark]
      simp
    have hfetch : Succeeds fetchPlain m fun _ k =>
        m.Passed (x :: more ++ gap) (Mark.plain (x :: more)).lexemes k ∧ k.depth = l.depth ∧
          (false = true → k.keyAllowed = true) :=
      (fetchPlain_succeeds hm.sound (by omega) hword' hword hgap hy).mono
        fun _ k hk => ⟨hk.1, hk.2.trans hmdepth, nofun⟩
    obtain ⟨_, _, heq, hfetch⟩ := fetchAt_word hword hword' hfetch
    obtain ⟨rfl, -⟩ := List.cons.inj heq
    exact hfetch

theorem fetch_ready (htrail : Spaced trail) {spots : Spots} {fresh : Bool} (hsound : l.Sound)
    (hrest : l.cursor.rest = spots.text ++ trail) (hruns : spots.Runs l.depth fresh)
    (hfresh : fresh = true → l.keyAllowed = true) (htaken : l.taken ≤ l.lexemes.length)
    (hall : all = l.lexemes ++ spots.lexemes) :
    Succeeds fetch l fun _ m => Advances all trail (l.cursor.rest.length + 1) l m := by
  generalize hdepth : l.depth = depth at hruns
  cases hruns with
  | done =>
      obtain rfl : all = l.lexemes := by simpa [Spots.lexemes] using hall
      exact fetch_done htrail hsound hdepth hrest htaken
  | @opening _ _ square lead rest hlead hlimit hruns =>
      refine fetch_spot htrail hsound hrest hlead rfl ?_ ?_ hruns htaken hall
        fun m hm hmdepth hmrest => fetchAt_opening square ?_
      · cases square <;> decide
      · cases square <;> decide
      · refine (fetchFlowStart_succeeds hm (by omega) _ hmrest).mono ?_
        rintro _ k ⟨hk, hkdepth, hkallowed⟩
        exact ⟨hk, by omega, fun _ => hkallowed⟩
  | @closing _ _ square lead rest hlead hruns =>
      refine fetch_spot htrail hsound hrest hlead rfl ?_ ?_ hruns htaken hall
        fun m hm hmdepth hmrest => fetchAt_closing square ?_
      · cases square <;> decide
      · cases square <;> decide
      · refine (fetchFlowEnd_succeeds hm (by omega) _ hmrest).mono ?_
        rintro _ k ⟨hk, hkdepth⟩
        exact ⟨hk, by omega, nofun⟩
  | comma hlead hruns =>
      refine fetch_spot htrail hsound hrest hlead rfl (by decide) (by decide) hruns htaken hall
        fun m hm hmdepth hmrest => fetchAt_comma ?_
      refine (fetchFlowEntry_succeeds hm hmrest).mono ?_
      rintro _ k ⟨hk, hkdepth, hkallowed⟩
      exact ⟨hk, by omega, fun _ => hkallowed⟩
  | key hlead hstring hgap hreach hruns =>
      exact fetch_key hlead hstring hgap hreach hsound (by omega) hrest (hdepth ▸ hruns)
        (hfresh rfl) htaken hall
  | @quoted _ _ lead text cs rest hlead hstring hruns =>
      refine fetch_spot htrail hsound hrest hlead rfl (by decide) (by decide) hruns htaken hall
        fun m hm hmdepth hmrest => fetchAt_quote ?_
      have hquoted : m.cursor.rest = '"' :: (text ++ '"' :: (rest.text ++ trail)) := by
        simpa [Mark.text] using hmrest
      refine (fetchQuoted_succeeds hm hquoted hstring).mono ?_
      rintro _ k ⟨hk, hkdepth, -⟩
      exact ⟨hk, by omega, nofun⟩
  | plain hlead hword hgap hend hruns =>
      exact fetch_plain htrail hlead hword hgap hend hsound (by omega) hrest (hdepth ▸ hruns)
        htaken hall

/-- A colon may stand behind spaces. -/
theorem Pending.behind_spaces {m : Lexer} {settled : List Lexeme} {name : String} {width : Nat}
    {key : PossibleKey} {gap : List Char} (hpending : Pending l settled name width key)
    (hgap : ∀ c ∈ gap, c = ' ') (hm : l.Passed gap [] m) (hkeeps : l.Keeps m) :
    Pending m settled name (width + gap.length) key := by
  have hstraight : ∀ x ∈ gap, isBreak x = false := by
    intro x hx
    rw [hgap x hx]
    decide
  refine ⟨?_, hm.taken ▸ hpending.taken, hkeeps.keys ▸ hpending.head, hpending.possible,
    hpending.place, ?_, ?_⟩
  · rw [hm.lexemes, List.append_nil, hpending.lexemes]
  · rw [hm.reach.index, hpending.index, Nat.add_assoc]
  · rw [(hm.reach.straight hstraight).1, hpending.line]

theorem fetch_pending (htrail : Spaced trail) {spots : Spots} {settled : List Lexeme}
    {name : String} {width : Nat} {key : PossibleKey} {gap : List Char} (hsound : l.Sound)
    (hdepth : 0 < l.depth) (hpending : Pending l settled name width key) (hgap : ∀ c ∈ gap, c = ' ')
    (hreach : width + gap.length ≤ keyReach)
    (hrest : l.cursor.rest = gap ++ ':' :: (spots.text ++ trail)) (hruns : spots.Runs l.depth false)
    (hall : all = settled ++ [.key, .scalar name .doubleQuoted, .value] ++ spots.lexemes) :
    Succeeds fetch l fun _ m => Advances all trail (l.cursor.rest.length + 1) l m := by
  have hlead : Spaced gap := fun x hx => .inl (hgap x hx)
  refine fetch_succeeds hsound hrest hlead (by decide) (by simp) fun m hm hmkeeps =>
    fetchAt_colon (hmkeeps.depth ▸ hdepth) ?_
  have hmrest := hm.reach.rest_of hrest
  have hpending' := hpending.behind_spaces hgap hm hmkeeps
  refine (fetchValue_succeeds hm.sound (hmkeeps.depth ▸ hdepth) hpending' hreach hmrest).mono ?_
  rintro _ k ⟨hk, hkreach, hktaken, hklexemes, hkdepth⟩
  have hkrest := hkreach.rest_of hmrest
  refine ⟨hk.clean, ?_, fun c hc => ?_⟩
  · rw [hkrest]
    exact hruns.no_comment htrail
  · have hruns' : spots.Runs k.depth false := by
      rw [hkdepth, hmkeeps.depth]
      exact hruns
    have hcrest : c.rest = spots.text ++ trail := hc.same.trans hkrest
    have htaken : k.taken ≤ settled.length := by
      rw [hktaken, hm.taken]
      exact hpending.taken
    refine ⟨c.rest.length + 1, .ready (hk.of_reaches hc) hcrest hruns' (fun h => nomatch h) ?_ ?_,
      .inl ?_, hktaken.trans hm.taken, ?_⟩
    · change k.taken ≤ k.lexemes.length
      rw [hklexemes, List.length_append]
      omega
    · change all = k.lexemes ++ _
      rw [hall, hklexemes]
    · rw [hrest, hcrest]
      simp only [List.length_append, List.length_cons]
      omega
    · change l.lexemes.length < k.lexemes.length
      rw [hpending.lexemes, hklexemes]
      simp

theorem fetch_ended {n : Nat} (hsound : l.Sound) (hrest : l.cursor.rest = []) (hdepth : l.depth = 0)
    (htaken : l.taken ≤ all.length)
    (hall : l.lexemes = all ++ List.replicate (n + 1) .streamEnd) :
    Succeeds fetch l fun _ m => Advances all trail 0 l m := by
  refine (fetch_end hsound hrest nofun).mono ?_
  rintro _ m ⟨hm, hmrest, hmtaken, hmlexemes, hmdepth, hmkey⟩
  have hmkeys := possible_of_head hm (hmdepth.trans hdepth) hmkey
  refine ⟨0, .ended (n := n + 1) hm hmrest (hmdepth.trans hdepth) hmkeys (hmtaken ▸ htaken) ?_,
    .inr ⟨rfl, rfl⟩, hmtaken, ?_⟩
  · rw [hmlexemes, hall, List.append_assoc, ← List.replicate_succ']
  · rw [hmlexemes]
    simp

theorem fetch_stage (htrail : Spaced trail) {left : Nat} (hstage : Stage all trail left l) :
    Succeeds fetch l fun _ m => Advances all trail left l m := by
  cases hstage with
  | ready hsound hrest hruns hfresh htaken hall =>
      exact fetch_ready htrail hsound hrest hruns hfresh htaken hall
  | pending hsound hdepth hpending hgap hreach hrest hruns hall =>
      exact fetch_pending htrail hsound hdepth hpending hgap hreach hrest hruns hall
  | ended hsound hrest hdepth _ htaken hall => exact fetch_ended hsound hrest hdepth htaken hall

end Lexing

/-! Tokens that are asked for. -/

namespace Lexer

variable {l : Lexer} {all : List Lexeme} {trail : List Char} {left : Nat}

theorem Stage.sound (hstage : Stage all trail left l) : l.Sound := by
  cases hstage with
  | ready hsound | pending hsound | ended hsound => exact hsound

theorem Stage.left_le (hstage : Stage all trail left l) : left ≤ l.cursor.size + 1 := by
  have hsize := hstage.sound.clean.size
  cases hstage <;> omega

theorem Stage.taken_le (hstage : Stage all trail left l) : l.taken ≤ l.lexemes.length := by
  cases hstage with
  | ready _ _ _ _ htaken => exact htaken
  | pending _ _ hpending =>
      have htaken := hpending.taken
      rw [hpending.lexemes, List.length_append]
      omega
  | ended _ _ _ _ htaken hall =>
      rw [hall, List.length_append]
      omega

theorem Stage.awaitedKey?_of_ended (hstage : Stage all trail 0 l) : l.awaitedKey? = none := by
  cases hstage with
  | ended _ _ _ hkeys =>
      rw [awaitedKey?, List.find?_eq_none]
      intro key hkey
      simp [hkeys key hkey]

theorem Sound.dropKey (hsound : l.Sound) (place : Nat) : (l.dropKey place).Sound := by
  refine hsound.of_keys (List.length_map _) fun key hkey => ?_
  obtain ⟨old, hold, rfl⟩ := List.mem_map.mp hkey
  have hrequired := hsound.optional old hold
  split <;> exact hrequired

/-- A key that started at the next token can be given up when more tokens are there: the key
of a colon that is yet to come starts at the last one. -/
theorem Stage.dropKey (hstage : Stage all trail left l) (hmore : l.taken + 2 < l.lexemes.length) :
    Stage all trail left (l.dropKey l.taken) := by
  have hsound := hstage.sound.dropKey l.taken
  cases hstage with
  | ready _ hrest hruns hfresh htaken hall => exact .ready hsound hrest hruns hfresh htaken hall
  | ended _ hrest hdepth hkeys htaken hall =>
      refine .ended hsound hrest hdepth (fun key hkey => ?_) htaken hall
      obtain ⟨old, hold, rfl⟩ := List.mem_map.mp hkey
      have hpossible := hkeys old hold
      split
      · rfl
      · exact hpossible
  | @pending _ spots settled name width key gap _ hdepth hpending hgap hreach hrest hruns hall =>
      have hplace : key.place ≠ l.taken := by
        have hplace := hpending.place
        rw [hpending.lexemes, List.length_append] at hmore
        simp only [List.length_singleton] at hmore
        omega
      have hhead : (l.dropKey l.taken).keys.head? = some key := by
        simp [Lexer.dropKey, List.head?_map, hpending.head, hplace]
      exact .pending hsound hdepth ⟨hpending.lexemes, hpending.taken, hhead, hpending.possible,
        hpending.place, hpending.index, hpending.line⟩ hgap hreach hrest hruns hall

/-- The next token is settled once two more are there. -/
theorem Stage.lexemes_taken (hstage : Stage all trail left l)
    (hmore : l.taken + 2 < l.lexemes.length) :
    l.lexemes[l.taken]? = some ((all.drop l.taken).headD .streamEnd) := by
  rw [List.headD_eq_head?_getD, List.head?_drop]
  cases hstage with
  | ready _ _ _ _ _ hall =>
      have hlt : l.taken < l.lexemes.length := by omega
      rw [hall, List.getElem?_append_left hlt, List.getElem?_eq_getElem hlt, Option.getD_some]
  | @pending _ spots settled name width key gap _ _ hpending _ _ _ _ hall =>
      have hlt : l.taken < settled.length := by
        rw [hpending.lexemes, List.length_append] at hmore
        simp only [List.length_singleton] at hmore
        omega
      rw [hall, hpending.lexemes, List.append_assoc, List.getElem?_append_left hlt,
        List.getElem?_append_left hlt, List.getElem?_eq_getElem hlt, Option.getD_some]
  | ended _ _ _ _ htaken hall =>
      rw [hall]
      rcases Nat.lt_or_eq_of_le htaken with hlt | heq
      · rw [List.getElem?_append_left hlt, List.getElem?_eq_getElem hlt, Option.getD_some]
      · rw [heq, List.getElem?_append_right (Nat.le_refl _), Nat.sub_self, List.getElem?_eq_none
          (Nat.le_refl _)]
        rfl

/-- The lexemes that are yet to be taken, and the end of the text after them. -/
def Awaits (trail : List Char) (lexemes : List Lexeme) (l : Lexer) : Prop :=
  ∃ all left, Stage all trail left l ∧ all.drop l.taken = lexemes

/-- The first of them is settled. -/
def Shows (trail : List Char) (lexemes : List Lexeme) (l : Lexer) : Prop :=
  l.Awaits trail lexemes ∧ l.taken + 2 < l.lexemes.length

end Lexer

namespace Lexing

open Lexer (Stage Advances Awaits Shows)

variable {l : Lexer} {all : List Lexeme} {trail : List Char} {left : Nat}

theorem fetchMore_succeeds (htrail : Spaced trail) {fuel : Nat} (hstage : Stage all trail left l)
    (hleft : left < fuel) (hmissing : l.taken + 3 - l.lexemes.length < fuel) :
    Succeeds (fetchMore fuel) l fun _ m => (∃ fewer, Stage all trail fewer m) ∧
      m.taken = l.taken ∧ l.taken + 2 < m.lexemes.length := by
  induction fuel generalizing l left with
  | zero => omega
  | succ fuel ih =>
      have hstep (hfuel : left ≠ 0 ∨ l.lexemes.length < l.taken + 3) :
          Succeeds (fetch >>= fun _ => fetchMore fuel) l fun _ m =>
            (∃ fewer, Stage all trail fewer m) ∧ m.taken = l.taken ∧
              l.taken + 2 < m.lexemes.length := by
        refine (fetch_stage htrail hstage).andThen ?_
        rintro _ m ⟨fewer, hm, hfewer, hmtaken, hmlexemes⟩
        rw [← hmtaken]
        exact ih hm (by omega) (by omega)
      refine Succeeds.bind (Succeeds.get ?_)
      split
      · next hmore =>
        rw [← l.length_lexemes] at hmore
        split
        · next hnone => exact Succeeds.pure ⟨⟨left, hstage⟩, rfl, hmore⟩
        · next key hkey =>
          have hplace : key.place = l.taken := by
            have hfound := List.find?_some hkey
            simp only [Bool.and_eq_true, decide_eq_true_eq] at hfound
            exact hfound.2
          have hoptional := hstage.sound.optional key (List.mem_of_find?_eq_some hkey)
          split
          · rw [hoptional, hplace]
            refine Succeeds.bind (Succeeds.set (Succeeds.pure ?_))
            exact ⟨⟨left, hstage.dropKey hmore⟩, rfl, hmore⟩
          · refine hstep (.inl ?_)
            rintro rfl
            rw [hstage.awaitedKey?_of_ended] at hkey
            cases hkey
      · next hmore =>
        rw [← l.length_lexemes] at hmore
        exact hstep (.inr (by omega))

theorem peek_succeeds (htrail : Spaced trail) {lexemes : List Lexeme}
    (hl : l.Awaits trail lexemes) :
    Succeeds peek l fun t m => t.lexeme = lexemes.headD .streamEnd ∧ m.Shows trail lexemes := by
  obtain ⟨all, left, hstage, rfl⟩ := hl
  have hleft := hstage.left_le
  have htaken := hstage.taken_le
  refine Succeeds.bind (cursor_succeeds ?_)
  refine (fetchMore_succeeds htrail hstage (by omega) (by omega)).andThen ?_
  rintro _ m ⟨⟨fewer, hm⟩, hmtaken, hmore⟩
  rw [← hmtaken] at hmore ⊢
  have hlexeme := hm.lexemes_taken hmore
  refine Succeeds.bind (Succeeds.get (Succeeds.pure ⟨?_, ⟨all, fewer, hm, rfl⟩, hmore⟩))
  have hlexeme' : (m.tokens.map Token.lexeme)[m.taken]? =
      some ((all.drop m.taken).headD .streamEnd) := by
    simpa [Lexer.lexemes] using hlexeme
  rw [Array.getElem?_map] at hlexeme'
  obtain ⟨t, ht, htlexeme⟩ := Option.map_eq_some_iff.mp hlexeme'
  rw [ht]
  exact htlexeme

theorem advance_succeeds {lexeme : Lexeme} {lexemes : List Lexeme}
    (hl : l.Shows trail (lexeme :: lexemes)) :
    Succeeds advance l fun _ m => m.Awaits trail lexemes := by
  obtain ⟨⟨all, left, hstage, hdrop⟩, hmore⟩ := hl
  refine Succeeds.modify ⟨all, left, ?_, ?_⟩
  · have hnext : l.taken + 1 ≤ l.lexemes.length := by omega
    have hlt : l.taken < all.length := by
      apply Nat.lt_of_not_le
      intro hle
      rw [List.drop_of_length_le hle] at hdrop
      cases hdrop
    have hsound : { l with taken := l.taken + 1 }.Sound := by
      have h := hstage.sound
      exact ⟨h.clean, h.indent, h.outer, h.keys, h.optional⟩
    cases hstage with
    | ready _ hrest hruns hfresh _ hall => exact .ready hsound hrest hruns hfresh hnext hall
    | @pending _ _ settled _ _ _ _ _ hdepth hpending hgap hreach hrest hruns hall =>
        have htaken : l.taken + 1 ≤ settled.length := by
          rw [hpending.lexemes, List.length_append, List.length_singleton] at hmore
          exact Nat.le_of_lt_succ (Nat.lt_of_succ_lt hmore)
        exact .pending hsound hdepth ⟨hpending.lexemes, htaken, hpending.head, hpending.possible,
          hpending.place, hpending.index, hpending.line⟩ hgap hreach hrest hruns hall
    | ended _ hrest hdepth hkeys _ hall => exact .ended hsound hrest hdepth hkeys hlt hall
  · rw [← List.tail_drop, hdrop, List.tail_cons]

end Lexing

end ScriptTree.Yaml
