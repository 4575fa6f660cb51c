import ScriptTree.Proofs.Yaml.Words

/-!
Tokens of a text inside of brackets, one after the other. A key is marked when its colon is
read, which is the next token.
-/

namespace ScriptTree.Yaml

open Json.Syntax (SharedString Spaced keyReach)
open Cursor (Clean Reaches)

namespace Lexer

def lexemes (l : Lexer) : List Lexeme := l.tokens.toList.map Token.lexeme

/-- A lexer that no indentation and no required key bears upon. -/
structure Sound (l : Lexer) : Prop where
  clean : l.cursor.Clean
  indent : l.indent = -1
  outer : l.outer = []
  keys : l.keys.length = l.depth + 1
  optional : ∀ key ∈ l.keys, key.required = false

variable {l m : Lexer}

theorem Sound.of_reaches (hsound : l.Sound) {c : Cursor} {text : List Char}
    (hreach : l.cursor.Reaches text c) : { l with cursor := c }.Sound :=
  ⟨hreach.clean, hsound.indent, hsound.outer, hsound.keys, hsound.optional⟩

theorem Sound.exists_keys (hsound : l.Sound) : ∃ key keys, l.keys = key :: keys := by
  cases hkeys : l.keys with
  | nil =>
      have hlength := hsound.keys
      simp [hkeys] at hlength
  | cons key keys => exact ⟨key, keys, rfl⟩

theorem Sound.of_keys (hsound : l.Sound) {keys : List PossibleKey}
    (hlength : keys.length = l.keys.length) (hoptional : ∀ key ∈ keys, key.required = false) :
    { l with keys := keys }.Sound :=
  ⟨hsound.clean, hsound.indent, hsound.outer, hlength.trans hsound.keys, hoptional⟩

/-- A second lexer has passed a text and added lexemes. -/
structure Passed (l : Lexer) (text : List Char) (added : List Lexeme) (m : Lexer) : Prop where
  sound : m.Sound
  reach : l.cursor.Reaches text m.cursor
  taken : m.taken = l.taken
  lexemes : m.lexemes = l.lexemes ++ added

theorem Passed.trans {k : Lexer} {first second : List Char} {added more : List Lexeme}
    (hm : l.Passed first added m) (hk : m.Passed second more k) :
    l.Passed (first ++ second) (added ++ more) k := by
  refine ⟨hk.sound, hm.reach.trans hk.reach, hk.taken.trans hm.taken, ?_⟩
  rw [hk.lexemes, hm.lexemes, List.append_assoc]

/-- Only keys, depth and allowance change. -/
theorem Passed.of_sound (hsound : m.Sound) (hclean : l.cursor.Clean) (hcursor : m.cursor = l.cursor)
    (htaken : m.taken = l.taken) (htokens : m.tokens = l.tokens) : l.Passed [] [] m := by
  refine ⟨hsound, ?_, htaken, ?_⟩
  · rw [hcursor]
    exact .refl hclean
  rw [Lexer.lexemes, Lexer.lexemes, htokens, List.append_nil]

/-- Nothing is lost that the next key needs. -/
structure Keeps (l m : Lexer) : Prop where
  depth : m.depth = l.depth
  keys : m.keys = l.keys
  keyAllowed : l.keyAllowed = true → m.keyAllowed = true

theorem Keeps.trans {k : Lexer} (hm : l.Keeps m) (hk : m.Keeps k) : l.Keeps k :=
  ⟨hk.depth.trans hm.depth, hk.keys.trans hm.keys, fun hallowed =>
    hk.keyAllowed (hm.keyAllowed hallowed)⟩

theorem length_lexemes (l : Lexer) : l.lexemes.length = l.tokens.size := by
  simp [lexemes]

end Lexer

namespace Lexing

open Scan

variable {l : Lexer}

theorem scan_succeeds {s : Scan α} {post : α → Lexer → Prop}
    (hs : Succeeds s l.cursor fun a c => post a { l with cursor := c }) :
    Succeeds (scan s) l post :=
  Succeeds.onPart Lexer.cursor (fun l c => { l with cursor := c }) hs

theorem cursor_succeeds {post : Cursor → Lexer → Prop} (hpost : post l.cursor l) :
    Succeeds cursor l post :=
  Succeeds.bind (Succeeds.get (Succeeds.pure hpost))

/-! Keys are given up without failure. -/

theorem setKey_succeeds (hsound : l.Sound) (key : PossibleKey) (hkey : key.required = false) :
    Succeeds (setKey key) l fun _ m => l.Passed [] [] m ∧ m.depth = l.depth ∧
      m.keyAllowed = l.keyAllowed ∧ m.keys = key :: l.keys.drop 1 := by
  obtain ⟨old, keys, hkeys⟩ := hsound.exists_keys
  have hoptional := hsound.optional
  rw [hkeys, List.forall_mem_cons] at hoptional
  refine Succeeds.modify ⟨?_, rfl, rfl, rfl⟩
  refine .of_sound (hsound.of_keys ?_ ?_) hsound.clean rfl rfl rfl
  · simp [hkeys]
  · rw [hkeys, List.drop_one, List.tail_cons, List.forall_mem_cons]
    exact ⟨hkey, hoptional.2⟩

theorem removeKey_succeeds (hsound : l.Sound) :
    Succeeds removeKey l fun _ m => l.Passed [] [] m ∧ m.depth = l.depth ∧
      m.keyAllowed = l.keyAllowed ∧ ∀ key ∈ m.keys.head?, key.possible = false := by
  obtain ⟨key, keys, hkeys⟩ := hsound.exists_keys
  have hrequired : key.required = false := hsound.optional key (by simp [hkeys])
  refine Succeeds.bind (Succeeds.get ?_)
  rw [hkeys]
  simp only [hrequired, Bool.false_eq_true, if_false]
  split
  · refine (setKey_succeeds hsound _ rfl).mono ?_
    rintro _ m ⟨hm, hdepth, hallowed, hkeys⟩
    exact ⟨hm, hdepth, hallowed, by simp [hkeys]⟩
  · next hpossible =>
    refine Succeeds.pure ⟨.of_sound hsound hsound.clean rfl rfl rfl, rfl, rfl, ?_⟩
    simpa [hkeys] using hpossible

/-- The key that may start where a lexer is. -/
def keyHere (l : Lexer) : PossibleKey :=
  ⟨l.tokens.size, l.cursor.index, l.cursor.line, l.cursor.column, false, true, true⟩

theorem saveKey_succeeds (hsound : l.Sound) :
    Succeeds saveKey l fun _ m => l.Passed [] [] m ∧ m.depth = l.depth ∧
      (l.keyAllowed = true → m.keys.head? = some (keyHere l)) := by
  have hrequired : (!l.inFlow && l.indent = (l.cursor.column : Int)) = false := by
    rw [hsound.indent, decide_eq_false (by omega), Bool.and_false]
  refine Succeeds.bind (Succeeds.get ?_)
  split
  · refine (removeKey_succeeds hsound).andThen ?_
    rintro _ m ⟨hm, hdepth, -⟩
    rw [hrequired]
    refine (setKey_succeeds hm.sound _ rfl).mono ?_
    rintro _ k ⟨hk, hdepth', -, hkeys⟩
    exact ⟨hm.trans hk, hdepth'.trans hdepth, fun _ => by rw [hkeys]; rfl⟩
  · next hallowed =>
    exact Succeeds.pure ⟨.of_sound hsound hsound.clean rfl rfl rfl, rfl, fun h => absurd h hallowed⟩

theorem allowKey_succeeds (hsound : l.Sound) (allowed : Bool) :
    Succeeds (allowKey allowed) l fun _ m => l.Passed [] [] m ∧ m.depth = l.depth ∧
      m.keyAllowed = allowed ∧ m.keys = l.keys := by
  refine Succeeds.modify ⟨.of_sound ?_ hsound.clean rfl rfl rfl, rfl, rfl, rfl⟩
  exact ⟨hsound.clean, hsound.indent, hsound.outer, hsound.keys, hsound.optional⟩

theorem enterFlow_succeeds (hsound : l.Sound) (hdepth : l.depth < Lexer.depthLimit) :
    Succeeds enterFlow l fun _ m => l.Passed [] [] m ∧ m.depth = l.depth + 1 := by
  refine Succeeds.bind (Succeeds.get (Succeeds.bind (Succeeds.set ?_)))
  rw [if_neg (by omega)]
  refine Succeeds.pure ⟨.of_sound ?_ hsound.clean rfl rfl rfl, rfl⟩
  refine ⟨hsound.clean, hsound.indent, hsound.outer, ?_, ?_⟩
  · simp [hsound.keys]
  · rw [List.forall_mem_cons]
    exact ⟨rfl, hsound.optional⟩

theorem leaveFlow_succeeds (hsound : l.Sound) (hdepth : 0 < l.depth) :
    Succeeds leaveFlow l fun _ m => l.Passed [] [] m ∧ m.depth = l.depth - 1 := by
  have hlength := hsound.keys
  have hoptional := hsound.optional
  refine Succeeds.modify ?_
  match hkeys : l.keys with
  | [] => simp [hkeys] at hlength
  | [key] =>
      simp [hkeys] at hlength
      omega
  | inner :: outer :: keys =>
      rw [hkeys, List.forall_mem_cons, List.forall_mem_cons] at hoptional
      refine ⟨.of_sound ⟨hsound.clean, hsound.indent, hsound.outer, ?_, ?_⟩ hsound.clean
        rfl rfl rfl, rfl⟩
      · simp [hkeys] at hlength ⊢
        omega
      · rw [List.forall_mem_cons]
        exact hoptional.2

theorem push_succeeds (hsound : l.Sound) (lexeme : Lexeme) (line : Nat) :
    Succeeds (push lexeme line) l fun _ m => l.Passed [] [lexeme] m ∧ l.Keeps m := by
  refine Succeeds.modify ⟨⟨?_, .refl hsound.clean, rfl, ?_⟩, rfl, rfl, id⟩
  · exact ⟨hsound.clean, hsound.indent, hsound.outer, hsound.keys, hsound.optional⟩
  · simp [Lexer.lexemes]

theorem scan_passed {s : Scan α} {text : List Char} {p : α → Prop} (hsound : l.Sound)
    (hs : Succeeds s l.cursor fun a c => p a ∧ l.cursor.Reaches text c) :
    Succeeds (scan s) l fun a m => p a ∧ l.Passed text [] m ∧ l.Keeps m := by
  refine scan_succeeds (hs.mono ?_)
  rintro a c ⟨ha, hc⟩
  exact ⟨ha, ⟨hsound.of_reaches hc, hc, rfl, by simp [Lexer.lexemes]⟩, rfl, rfl, id⟩

theorem mark_succeeds (hsound : l.Sound) (lexeme : Lexeme) (text : List Char) {tail : List Char}
    (hrest : l.cursor.rest = text ++ tail) :
    Succeeds (mark lexeme text.length) l fun _ m => l.Passed text [lexeme] m ∧ l.Keeps m := by
  refine Succeeds.bind (cursor_succeeds ?_)
  have hskip : Succeeds (skipMany text.length) l.cursor fun _ c => True ∧ l.cursor.Reaches text c :=
    (skipMany_succeeds hsound.clean text hrest).mono fun _ _ h => ⟨trivial, h⟩
  refine (scan_passed hsound hskip).andThen ?_
  rintro _ m ⟨-, hm, hmkeeps⟩
  refine (push_succeeds hm.sound lexeme _).mono ?_
  rintro _ k ⟨hk, hkkeeps⟩
  refine ⟨?_, hmkeeps.trans hkkeeps⟩
  simpa using hm.trans hk

/-- How the token of an indicator ends: it is settled whether a key may follow. -/
theorem allowKey_mark_succeeds {m : Lexer} (hm : l.Passed [] [] m) (allowed : Bool)
    (lexeme : Lexeme) {x : Char} {tail : List Char} (hrest : l.cursor.rest = x :: tail) :
    Succeeds (do allowKey allowed; mark lexeme 1) m fun _ k => l.Passed [x] [lexeme] k ∧
      k.depth = m.depth ∧ (allowed = true → k.keyAllowed = true) := by
  refine (allowKey_succeeds hm.sound allowed).andThen ?_
  rintro _ k ⟨hk, hkdepth, hallowed, -⟩
  have hpassed := hm.trans hk
  refine (mark_succeeds hk.sound lexeme [x] (hpassed.reach.same.trans hrest)).mono ?_
  rintro _ j ⟨hj, hjkeeps⟩
  exact ⟨hpassed.trans hj, hjkeeps.depth.trans hkdepth,
    fun htrue => hjkeeps.keyAllowed (hallowed.trans htrue)⟩

/-! One token of each kind. -/

theorem fetchFlowStart_succeeds (hsound : l.Sound) (hdepth : l.depth < Lexer.depthLimit)
    (lexeme : Lexeme) {x : Char} {tail : List Char} (hrest : l.cursor.rest = x :: tail) :
    Succeeds (fetchFlowStart lexeme) l fun _ m => l.Passed [x] [lexeme] m ∧
      m.depth = l.depth + 1 ∧ m.keyAllowed = true := by
  refine (saveKey_succeeds hsound).andThen ?_
  rintro _ m ⟨hm, hmdepth, -⟩
  refine (enterFlow_succeeds hm.sound (hmdepth ▸ hdepth)).andThen ?_
  rintro _ k ⟨hk, hkdepth⟩
  refine (allowKey_mark_succeeds (hm.trans hk) true lexeme hrest).mono ?_
  rintro _ j ⟨hj, hjdepth, hallowed⟩
  refine ⟨hj, ?_, hallowed rfl⟩
  rw [hjdepth, hkdepth, hmdepth]

theorem fetchFlowEnd_succeeds (hsound : l.Sound) (hdepth : 0 < l.depth) (lexeme : Lexeme) {x : Char}
    {tail : List Char} (hrest : l.cursor.rest = x :: tail) :
    Succeeds (fetchFlowEnd lexeme) l fun _ m => l.Passed [x] [lexeme] m ∧
      m.depth = l.depth - 1 := by
  refine (removeKey_succeeds hsound).andThen ?_
  rintro _ m ⟨hm, hmdepth, -⟩
  refine (leaveFlow_succeeds hm.sound (hmdepth ▸ hdepth)).andThen ?_
  rintro _ k ⟨hk, hkdepth⟩
  refine (allowKey_mark_succeeds (hm.trans hk) false lexeme hrest).mono ?_
  rintro _ j ⟨hj, hjdepth, -⟩
  refine ⟨hj, ?_⟩
  rw [hjdepth, hkdepth, hmdepth]

theorem fetchFlowEntry_succeeds (hsound : l.Sound) {x : Char} {tail : List Char}
    (hrest : l.cursor.rest = x :: tail) :
    Succeeds fetchFlowEntry l fun _ m => l.Passed [x] [.flowEntry] m ∧ m.depth = l.depth ∧
      m.keyAllowed = true := by
  refine (removeKey_succeeds hsound).andThen ?_
  rintro _ m ⟨hm, hmdepth, -⟩
  refine (allowKey_mark_succeeds hm true .flowEntry hrest).mono ?_
  rintro _ k ⟨hk, hkdepth, hallowed⟩
  exact ⟨hk, hkdepth.trans hmdepth, hallowed rfl⟩

theorem fetchWord_succeeds (hsound : l.Sound) {read : Scan Lexeme} {text : List Char}
    {lexeme : Lexeme}
    (hread : ∀ c, l.cursor.Reaches [] c →
      Succeeds read c fun result d => result = lexeme ∧ c.Reaches text d) :
    Succeeds (fetchWord read) l fun _ m => l.Passed text [lexeme] m ∧ m.depth = l.depth ∧
      (l.keyAllowed = true → m.keys.head? = some (keyHere l)) := by
  refine (saveKey_succeeds hsound).andThen ?_
  rintro _ m ⟨hm, hmdepth, hkey⟩
  refine (allowKey_succeeds hm.sound false).andThen ?_
  rintro _ k ⟨hk, hkdepth, -, hkkeys⟩
  have hpassed := hm.trans hk
  refine Succeeds.bind (cursor_succeeds ?_)
  refine (scan_passed hk.sound (hread _ hpassed.reach)).andThen ?_
  rintro _ j ⟨rfl, hj, hjkeeps⟩
  refine (push_succeeds hj.sound _ _).mono ?_
  rintro _ i ⟨hi, hikeeps⟩
  have hkeeps := hjkeeps.trans hikeeps
  refine ⟨?_, ?_, fun hallowed => ?_⟩
  · simpa using (hpassed.trans hj).trans hi
  · rw [hkeeps.depth, hkdepth, hmdepth]
  · rw [hkeeps.keys, hkkeys, hkey hallowed]

theorem fetchQuoted_succeeds (hsound : l.Sound) {text cs tail : List Char}
    (hrest : l.cursor.rest = '"' :: (text ++ '"' :: tail)) (hstring : SharedString text cs) :
    Succeeds (fetchQuoted false) l fun _ m =>
      l.Passed ('"' :: (text ++ ['"'])) [.scalar (String.ofList cs) .doubleQuoted] m ∧
      m.depth = l.depth ∧ (l.keyAllowed = true → m.keys.head? = some (keyHere l)) := by
  refine fetchWord_succeeds hsound fun c hc => ?_
  refine (quotedScalar_succeeds hc.clean (hc.same.trans hrest) hstring).andThen ?_
  rintro _ d ⟨rfl, hd⟩
  exact Succeeds.pure ⟨rfl, hd⟩

theorem fetchPlain_succeeds (hsound : l.Sound) (hdepth : 0 < l.depth) {text gap tail : List Char}
    {x : Char} (hrest : l.cursor.rest = text ++ (gap ++ x :: tail)) (hword : Word text)
    (hgap : Spaced gap) (hx : isCloser x = true) :
    Succeeds fetchPlain l fun _ m =>
      l.Passed (text ++ gap) [.scalar (String.ofList text) .plain] m ∧ m.depth = l.depth := by
  refine (saveKey_succeeds hsound).andThen ?_
  rintro _ m ⟨hm, hmdepth, -⟩
  refine (allowKey_succeeds hm.sound false).andThen ?_
  rintro _ k ⟨hk, hkdepth, -, -⟩
  have hpassed := hm.trans hk
  have hflow : k.inFlow = true := by
    rw [Lexer.inFlow, hkdepth, hmdepth]
    simpa using hdepth
  refine Succeeds.bind (Succeeds.get ?_)
  rw [hflow]
  refine (scan_passed hk.sound (plainScalar_succeeds hk.sound.clean
    (hpassed.reach.same.trans hrest) hword hgap hx _)).andThen ?_
  rintro p j ⟨rfl, hj, hjkeeps⟩
  refine (push_succeeds hj.sound _ _).andThen ?_
  rintro _ i ⟨hi, hikeeps⟩
  have hpassed' : l.Passed (p.text ++ gap) [.scalar (String.ofList p.text) .plain] i := by
    simpa using (hpassed.trans hj).trans hi
  have hidepth : i.depth = l.depth := by rw [(hjkeeps.trans hikeeps).depth, hkdepth, hmdepth]
  split
  · refine (allowKey_succeeds hi.sound true).mono ?_
    rintro _ h ⟨hh, hhdepth, -, -⟩
    exact ⟨by simpa using hpassed'.trans hh, hhdepth.trans hidepth⟩
  · exact Succeeds.pure ⟨hpassed', hidepth⟩

/-! The colon after a key. -/

theorem insertIdx_length_append (front : List α) (a b : α) :
    (front ++ [b]).insertIdx front.length a = front ++ [a, b] := by
  induction front with
  | nil => rfl
  | cons c front ih => simpa using ih

theorem lexemes_insert {settled : List Lexeme} {last : Lexeme}
    (hlexemes : l.lexemes = settled ++ [last]) (htaken : l.taken ≤ settled.length) (t : Token) :
    (l.insert settled.length t).lexemes = settled ++ [t.lexeme, last] := by
  have hsize : settled.length ≤ l.tokens.size := by
    rw [← l.length_lexemes, hlexemes, List.length_append]
    omega
  obtain ⟨front, back, htokens, rfl, hback⟩ := List.map_eq_append_iff.mp hlexemes
  obtain ⟨b, rfl, rfl⟩ := List.map_eq_singleton_iff.mp hback
  rw [List.length_map] at htaken hsize ⊢
  rw [Lexer.lexemes, Lexer.insert, if_neg (by omega), Array.insertIdxIfInBounds, dif_pos hsize,
    Array.toList_insertIdx, htokens, insertIdx_length_append, List.map_append]
  rfl

/-- A key that was just read: its token is the last, and the cursor stands behind it. -/
structure Pending (l : Lexer) (settled : List Lexeme) (name : String) (width : Nat)
    (key : PossibleKey) : Prop where
  lexemes : l.lexemes = settled ++ [.scalar name .doubleQuoted]
  taken : l.taken ≤ settled.length
  head : l.keys.head? = some key
  possible : key.possible = true
  place : key.place = settled.length
  index : l.cursor.index = key.index + width
  line : l.cursor.line = key.line

theorem Pending.exists_keys {settled : List Lexeme} {name : String} {width : Nat}
    {key : PossibleKey} (hpending : Pending l settled name width key) :
    ∃ keys, l.keys = key :: keys := by
  have hhead := hpending.head
  cases hkeys : l.keys with
  | nil => simp [hkeys] at hhead
  | cons first keys => exact ⟨keys, by simpa [hkeys] using hhead⟩

/-- The key that was just read is still in reach of its colon. -/
theorem validKey?_succeeds {settled : List Lexeme} {name : String} {width : Nat}
    {key : PossibleKey} (hpending : Pending l settled name width key) (hreach : width ≤ keyReach) :
    Succeeds validKey? l fun result m => result = some key ∧ l = m := by
  obtain ⟨keys, hkeys⟩ := hpending.exists_keys
  have hvalid : l.inReach key = true := by
    have hindex := hpending.index
    rw [Lexer.inReach, hpending.line]
    simp [keyReach] at hreach ⊢
    omega
  refine Succeeds.bind (Succeeds.get ?_)
  rw [hkeys]
  simp only [hpending.possible, hvalid, Bool.not_true, Bool.false_eq_true, if_false, if_true]
  exact Succeeds.pure ⟨rfl, rfl⟩

theorem fetchValue_succeeds (hsound : l.Sound) (hdepth : 0 < l.depth) {settled : List Lexeme}
    {name : String} {width : Nat} {key : PossibleKey} (hpending : Pending l settled name width key)
    (hreach : width ≤ keyReach) {x : Char} {tail : List Char} (hrest : l.cursor.rest = x :: tail) :
    Succeeds fetchValue l fun _ m => m.Sound ∧ l.cursor.Reaches [x] m.cursor ∧ m.taken = l.taken ∧
      m.lexemes = settled ++ [.key, .scalar name .doubleQuoted, .value] ∧ m.depth = l.depth := by
  obtain ⟨keys, hkeys⟩ := hpending.exists_keys
  have hrequired : key.required = false := hsound.optional key (by simp [hkeys])
  refine (validKey?_succeeds hpending hreach).andThen ?_
  rintro _ _ ⟨rfl, rfl⟩
  refine Succeeds.bind (Succeeds.modify ?_)
  have hinserted : (l.insert key.place ⟨.key, key.line⟩).Sound :=
    ⟨hsound.clean, hsound.indent, hsound.outer, hsound.keys, hsound.optional⟩
  have hlexemes : (l.insert key.place ⟨.key, key.line⟩).lexemes =
      settled ++ [.key, .scalar name .doubleQuoted] := by
    rw [hpending.place]
    exact lexemes_insert hpending.lexemes hpending.taken _
  have hflow : (l.insert key.place ⟨.key, key.line⟩).inFlow = true := decide_eq_true hdepth
  refine Succeeds.bind (Succeeds.bind (Succeeds.get ?_))
  simp only [hflow, Bool.not_true, Bool.false_and, Bool.false_eq_true, if_false]
  refine Succeeds.pure ?_
  refine (setKey_succeeds hinserted { key with possible := false } hrequired).andThen ?_
  rintro _ m ⟨hm, hmdepth, -, -⟩
  refine (allowKey_mark_succeeds hm false .value hrest).mono ?_
  rintro _ k ⟨hk, hkdepth, -⟩
  refine ⟨hk.sound, hk.reach, hk.taken, ?_, hkdepth.trans hmdepth⟩
  rw [hk.lexemes, hlexemes, List.append_assoc]
  rfl

/-! Blanks before a token. -/

/-- A character that is no blank and starts no comment. -/
def isSolid (x : Char) : Bool := !(isGap x || isBreak x || x = '#')

theorem skipWhile_lead {tabs : Bool} {c : Cursor} (hclean : c.Clean) {spaces tail : List Char}
    (hrest : c.rest = spaces ++ tail) (hspaces : ∀ x ∈ spaces, x = ' ')
    (htail : tail.head?.all (fun x => x ≠ '#' && !isGap x) = true) :
    Succeeds (do
        if c.column = 0 && c.marked then skip
        skipWhile (fun x => x = ' ' || (tabs && x = '\t'))
        let c ← get
        if c.looksAt 0 '#' then skipComments (c.size + 1) c.index) c
      fun _ d => True ∧ c.Reaches spaces d := by
  have hclass : ∀ x ∈ spaces, (x = ' ' || (tabs && x = '\t')) = true := by
    intro x hx
    simp [hspaces x hx]
  have hstop : tail.head?.any (fun x => x = ' ' || (tabs && x = '\t')) = false := by
    cases tail with
    | nil => rfl
    | cons y tail =>
        have hy : y ≠ '#' ∧ y ≠ ' ' ∧ y ≠ '\t' := by simpa [isGap] using htail
        simp [hy]
  simp only [hclean.marked, Bool.and_false, Bool.false_eq_true, if_false]
  refine (skipWhile_succeeds hclean hrest hclass hstop).andThen fun _ d hd => ?_
  refine Succeeds.bind (Succeeds.get ?_)
  have hhash : d.looksAt 0 '#' = false := by
    rw [Cursor.looksAt, hd.rest_of hrest]
    cases tail with
    | nil => rfl
    | cons y tail =>
        have hy : y ≠ '#' ∧ isGap y = false := by simpa using htail
        simp [hy]
  simp only [hhash, Bool.false_eq_true, if_false]
  exact Succeeds.pure ⟨trivial, hd⟩

theorem of_isSolid {x : Char} (hx : isSolid x = true) :
    isGap x = false ∧ isBreak x = false ∧ x ≠ '#' := by
  simpa [isSolid, and_assoc] using hx

theorem break_of_spaced {x : Char} {more : List Char} (hmore : Spaced (x :: more))
    (hspace : (x :: more).head?.any (fun x => x = ' ') = false) :
    isGap x = false ∧ isBreak x = true := by
  have hx : x ≠ ' ' := by simpa using hspace
  exact (isBreak_of_spaced hmore List.mem_cons_self).resolve_left hx

theorem head?_behind_spaces {more tail : List Char} (hmore : Spaced more)
    (hspace : more.head?.any (fun x => x = ' ') = false) (htail : tail.head?.all isSolid = true) :
    (more ++ tail).head?.all (fun x => x ≠ '#' && !isGap x) = true := by
  cases more with
  | nil =>
      cases tail with
      | nil => rfl
      | cons y tail =>
          obtain ⟨hgap, -, hhash⟩ := of_isSolid (by simpa using htail)
          simp [hgap, hhash]
  | cons y more =>
      obtain ⟨hgap, hbreak⟩ := break_of_spaced hmore hspace
      have hhash : y ≠ '#' := by
        rintro rfl
        exact absurd hbreak (by decide)
      simp [hgap, hhash]

theorem need_passed (hsound : l.Sound) (n : Nat) :
    Succeeds (scan (need n)) l fun _ m => l.Passed [] [] m ∧ l.Keeps m := by
  have hneed : Succeeds (need n) l.cursor fun _ c => True ∧ l.cursor.Reaches [] c :=
    (need_succeeds hsound.clean n).mono fun _ _ h => ⟨trivial, h⟩
  exact (scan_passed hsound hneed).mono fun _ _ h => h.2

/-- A line break is passed with the character that belongs to it. It may allow a key, and takes no
allowance away. -/
theorem skipLine_succeeds {flow : Bool} {next : Lexing Unit} {post : Unit → Lexer → Prop}
    (hsound : l.Sound) {x : Char} {text tail : List Char}
    (hrest : l.cursor.rest = x :: (text ++ tail)) (hbreak : isBreak x = true)
    (htail : tail.head? ≠ some '\n')
    (hnext : ∀ m passed left, x :: text = passed ++ left → left.length ≤ text.length →
      l.Passed passed [] m → l.Keeps m → Succeeds next m post) :
    Succeeds (do
        scan skipBreak
        if !flow then allowKey true
        next) l post := by
  refine Succeeds.bind (scan_succeeds ?_)
  refine (skipBreak_succeeds hsound.clean hrest hbreak).mono fun _ d hd => ?_
  obtain ⟨passed, left, hsplit, hleft, hd⟩ := exists_left_of_break htail hd
  have hm : l.Passed passed [] { l with cursor := d } :=
    ⟨hsound.of_reaches hd, hd, rfl, by simp [Lexer.lexemes]⟩
  cases flow with
  | false =>
      refine (allowKey_succeeds hm.sound true).andThen ?_
      rintro _ k ⟨hk, hdepth, hallowed, hkeys⟩
      have hpassed : l.Passed passed [] k := by simpa using hm.trans hk
      exact hnext k passed left hsplit hleft hpassed ⟨hdepth, hkeys, fun _ => hallowed⟩
  | true => exact hnext _ passed left hsplit hleft hm ⟨rfl, rfl, id⟩

theorem skipSpace_succeeds {fuel : Nat} (hsound : l.Sound) {lead tail : List Char}
    (hrest : l.cursor.rest = lead ++ tail) (hlead : Spaced lead)
    (htail : tail.head?.all isSolid = true) (hfuel : lead.length < fuel) :
    Succeeds (skipSpace fuel) l fun _ m => l.Passed lead [] m ∧ l.Keeps m := by
  induction fuel generalizing l lead with
  | zero => omega
  | succ fuel ih =>
      rw [skipSpace]
      refine (need_passed hsound 1).andThen ?_
      rintro _ m ⟨hm, hmkeeps⟩
      refine Succeeds.bind (Succeeds.get ?_)
      obtain ⟨spaces, more, rfl, hspaces, hspace⟩ := exists_span (fun x => x = ' ') lead
      simp only [decide_eq_true_eq] at hspaces
      rw [List.append_assoc] at hrest
      have hmore : Spaced more := hlead.of_append spaces
      refine (scan_passed hm.sound (skipWhile_lead hm.sound.clean (hm.reach.same.trans hrest)
        hspaces (head?_behind_spaces hmore hspace htail))).andThen ?_
      rintro _ k ⟨-, hk, hkkeeps⟩
      refine Succeeds.bind (cursor_succeeds ?_)
      have hpassed := hm.trans hk
      have hkeeps := hmkeeps.trans hkkeeps
      have hrest' : k.cursor.rest = more ++ tail := hpassed.reach.rest_of hrest
      cases more with
      | nil =>
          have hbreak : k.cursor.breakAt 0 = false := by
            rw [Cursor.breakAt, hrest']
            cases tail with
            | nil => rfl
            | cons y tail => simp [of_isSolid (x := y) (by simpa using htail)]
          simp only [hbreak, Bool.false_eq_true, if_false]
          exact Succeeds.pure ⟨by simpa using hpassed, hkeeps⟩
      | cons y more =>
          obtain ⟨-, hbreak⟩ := break_of_spaced hmore hspace
          have hline : k.cursor.breakAt 0 = true := by simp [Cursor.breakAt, hrest', hbreak]
          have hnewline : tail.head? ≠ some '\n' := by
            intro hhead
            rw [hhead] at htail
            exact absurd htail (by decide)
          simp only [hline, if_true]
          refine skipLine_succeeds hk.sound hrest' hbreak hnewline
            fun j passed left hsplit hleft hj hjkeeps => ?_
          rw [hsplit, List.append_assoc] at hrest'
          rw [hsplit] at hmore ⊢
          have hfewer : left.length < fuel := by
            rw [List.length_append, List.length_cons] at hfuel
            omega
          refine (ih hj.sound (hj.reach.rest_of hrest') (Spaced.of_append passed hmore)
            hfewer).mono ?_
          rintro _ i ⟨hi, hikeeps⟩
          refine ⟨?_, (hkeeps.trans hjkeeps).trans hikeeps⟩
          simpa using (hpassed.trans hj).trans hi

theorem unrollIndent_succeeds (hsound : l.Sound) (column : Int) (line : Nat) :
    Succeeds (unrollIndent column line) l fun _ m => l = m := by
  refine Succeeds.modify ?_
  split
  · rfl
  · rw [hsound.outer, closeBlocks]
    simp [← hsound.outer]

/-- What is read at a token is read behind the blanks before it. -/
theorem lead_succeeds (hsound : l.Sound) {lead tail : List Char}
    (hrest : l.cursor.rest = lead ++ tail) (hlead : Spaced lead)
    (htail : tail.head?.all isSolid = true) {body : Cursor → Lexing α} {post : α → Lexer → Prop}
    (hbody : ∀ m : Lexer, l.Passed lead [] m → l.Keeps m → Succeeds (body m.cursor) m post) :
    Succeeds (do
        scan (need 1)
        let before ← cursor
        skipSpace (before.size + 1)
        unrollIndent (← cursor).column before.line
        scan (need 4)
        let c ← cursor
        body c) l post := by
  refine (need_passed hsound 1).andThen ?_
  rintro _ m ⟨hm, hmkeeps⟩
  refine Succeeds.bind (cursor_succeeds ?_)
  have hfuel : lead.length < m.cursor.size + 1 := by
    have hsize := hm.sound.clean.size
    rw [hm.reach.same, hrest, List.length_append] at hsize
    omega
  refine (skipSpace_succeeds hm.sound (hm.reach.same.trans hrest) hlead htail hfuel).andThen ?_
  rintro _ k ⟨hk, hkkeeps⟩
  refine Succeeds.bind (cursor_succeeds ?_)
  refine (unrollIndent_succeeds hk.sound _ _).andThen ?_
  rintro _ _ rfl
  refine (need_passed hk.sound 4).andThen ?_
  rintro _ j ⟨hj, hjkeeps⟩
  refine Succeeds.bind (cursor_succeeds ?_)
  exact hbody j (by simpa using (hm.trans hk).trans hj) ((hmkeeps.trans hkkeeps).trans hjkeeps)

/-- Blanks are passed before a token is read, and no comment is found behind it. -/
theorem fetch_succeeds (hsound : l.Sound) {lead tail : List Char} {x : Char}
    (hrest : l.cursor.rest = lead ++ x :: tail) (hlead : Spaced lead) (hsolid : isSolid x = true)
    (hstart : x ≠ '%' ∧ x ≠ '.' ∧ (x = '-' → tail.head? ≠ some '-')) {post : Lexer → Prop}
    (hfetch : ∀ m : Lexer, l.Passed lead [] m → l.Keeps m →
      Succeeds (fetchAt x) m fun _ k => k.cursor.Clean ∧
        (k.cursor.rest.dropWhile isGap).head? ≠ some '#' ∧
        ∀ c, k.cursor.Reaches [] c → post { k with cursor := c }) :
    Succeeds fetch l fun _ k => post k := by
  refine lead_succeeds hsound hrest hlead (by simpa using hsolid) fun j hpassed hkeeps => ?_
  have hrest' := hpassed.reach.rest_of hrest
  have hpercent : (j.cursor.column = 0 && x = '%') = false := by simp [hstart.1]
  have hdash : j.cursor.marker '-' = false := by
    by_cases hx : x = '-'
    · have hnext : tail[0]? ≠ some '-' := by
        rw [← List.head?_eq_getElem?]
        exact hstart.2.2 hx
      simp [Cursor.marker, Cursor.looksAt, hrest', hnext]
    · simp [Cursor.marker, Cursor.looksAt, hrest', hx]
  have hdot : j.cursor.marker '.' = false := by
    simp [Cursor.marker, Cursor.looksAt, hrest', hstart.2.1]
  rw [hrest']
  simp only [hpercent, hdash, hdot, Bool.false_eq_true, if_false]
  refine (hfetch j hpassed hkeeps).andThen ?_
  rintro _ i ⟨hclean, hcomment, hpost⟩
  refine Succeeds.bind (Succeeds.get ?_)
  split
  · exact scan_succeeds ((skipLineComment_succeeds hclean hcomment).mono fun _ c hc => hpost c hc)
  · exact Succeeds.pure (hpost i.cursor (.refl hclean))

/-! The token that a character starts. -/

theorem fetchAt_opening (square : Bool) {post : Unit → Lexer → Prop}
    (hfetch : Succeeds
      (fetchFlowStart (if square then .flowSequenceStart else .flowMappingStart)) l post) :
    Succeeds (fetchAt (if square then '[' else '\x7b')) l post := by
  refine Succeeds.bind (Succeeds.get ?_)
  cases square <;> exact hfetch

theorem fetchAt_closing (square : Bool) {post : Unit → Lexer → Prop}
    (hfetch : Succeeds
      (fetchFlowEnd (if square then .flowSequenceEnd else .flowMappingEnd)) l post) :
    Succeeds (fetchAt (if square then ']' else '\x7d')) l post := by
  refine Succeeds.bind (Succeeds.get ?_)
  cases square <;> exact hfetch

theorem fetchAt_comma {post : Unit → Lexer → Prop} (hfetch : Succeeds fetchFlowEntry l post) :
    Succeeds (fetchAt ',') l post :=
  Succeeds.bind (Succeeds.get hfetch)

theorem fetchAt_colon (hdepth : 0 < l.depth) {post : Unit → Lexer → Prop}
    (hfetch : Succeeds fetchValue l post) : Succeeds (fetchAt ':') l post := by
  have hflow : l.inFlow = true := decide_eq_true hdepth
  refine Succeeds.bind (Succeeds.get ?_)
  simp only [Char.reduceEq, decide_false, decide_true, Bool.false_and, Bool.true_and, hflow,
    Bool.true_or, Bool.false_eq_true, if_false, if_true]
  exact hfetch

theorem fetchAt_quote {post : Unit → Lexer → Prop} (hfetch : Succeeds (fetchQuoted false) l post) :
    Succeeds (fetchAt '"') l post := by
  refine Succeeds.bind (Succeeds.get ?_)
  simp only [Char.reduceEq, decide_false, Bool.false_and, Bool.false_eq_true, if_false, if_true]
  exact hfetch

theorem isIndicator_of_startsWord {x : Char} (hx : startsWord x = true) :
    isIndicator x = false := by
  have hindicators : ∀ y ∈ ['-', '?', ':', ',', '[', ']', '\x7b', '\x7d', '#', '&', '*', '!', '|',
      '>', '\'', '"', '%', '@', Char.ofNat 0x60], startsWord y = false := by
    simp only [List.forall_mem_cons, List.not_mem_nil, false_implies, implies_true]
    decide
  rw [isIndicator, ← Bool.not_eq_true, List.contains_iff_mem]
  intro hmem
  simp [hindicators x hmem] at hx

theorem blank_of_isDigit {x : Char} (hx : x.isDigit = true) :
    isGap x = false ∧ isBreak x = false := by
  have hbreaks : ∀ y ∈ ['\n', '\r', Char.ofNat 0x85, Char.ofNat 0x2028, Char.ofNat 0x2029],
      y.isDigit = false := by
    simp only [List.forall_mem_cons, List.not_mem_nil, false_implies, implies_true]
    decide
  have hne (y : Char) (hy : y.isDigit = false) : x ≠ y := by
    rintro rfl
    simp [hx] at hy
  constructor
  · simp [isGap, hne ' ' (by decide), hne '\t' (by decide)]
  · cases hbreak : isBreak x with
    | false => rfl
    | true => simp [hbreaks x (eq_of_isBreak hbreak)] at hx

theorem fetchAt_word {text tail : List Char} (hword : Word text)
    (hrest : l.cursor.rest = text ++ tail) {post : Unit → Lexer → Prop}
    (hfetch : Succeeds fetchPlain l post) :
    ∃ x rest, text = x :: rest ∧ Succeeds (fetchAt x) l post := by
  obtain ⟨x, rest, rfl, hstart⟩ := hword.start
  refine ⟨x, rest, rfl, Succeeds.bind (Succeeds.get ?_)⟩
  rcases hstart with hstart | ⟨rfl, y, more, rfl, hy⟩
  · have hne (y : Char) (hy : startsWord y = false) : x ≠ y := ne_of_startsWord hstart hy
    have hplain : startsPlain l x = true := by
      have hx := hword.plain x (by simp)
      simp only [isPlainChar, Bool.not_eq_true', Bool.or_eq_false_iff] at hx
      simp [startsPlain, isIndicator_of_startsWord hstart, hx]
    simp only [hne '[' (by decide), hne '\x7b' (by decide), hne ']' (by decide),
      hne '\x7d' (by decide), hne ',' (by decide), hne '-' (by decide), hne '?' (by decide),
      hne ':' (by decide), hne '*' (by decide), hne '&' (by decide), hne '!' (by decide),
      hne '|' (by decide), hne '>' (by decide), hne '\'' (by decide), hne '"' (by decide), hplain,
      decide_false, Bool.false_and, Bool.false_eq_true, if_false, if_true]
    exact hfetch
  · obtain ⟨hgap, hbreak⟩ := blank_of_isDigit hy
    have hword : l.cursor.endsWord 1 = false := by simp [Cursor.endsWord, hrest, hgap, hbreak]
    have hplain : startsPlain l '-' = true := by simp [startsPlain, Cursor.gapAt, hrest, hgap]
    simp only [Char.reduceEq, hword, hplain, decide_false, Bool.false_and, Bool.and_false,
      Bool.false_eq_true, if_false, if_true]
    exact hfetch

/-! The end of the text. -/

theorem fetchStreamEnd_succeeds (hsound : l.Sound) (hrest : l.cursor.rest = []) :
    Succeeds fetchStreamEnd l fun _ m => m.Sound ∧ m.cursor.rest = [] ∧ m.taken = l.taken ∧
      m.lexemes = l.lexemes ++ [.streamEnd] ∧ m.depth = l.depth ∧
      ∀ key ∈ m.keys.head?, key.possible = false := by
  let k : Lexer := if l.cursor.column = 0 then l
    else { l with cursor := { l.cursor with column := 0, line := l.cursor.line + 1 } }
  have hk : k.Sound ∧ k.cursor.rest = [] ∧ k.taken = l.taken ∧ k.lexemes = l.lexemes ∧
      k.depth = l.depth := by
    simp only [k]
    split
    · exact ⟨hsound, hrest, rfl, rfl, rfl⟩
    · refine ⟨⟨?_, hsound.indent, hsound.outer, hsound.keys, hsound.optional⟩, hrest, rfl, rfl, rfl⟩
      exact ⟨hsound.clean.damage, hsound.clean.marked, hsound.clean.unmarked, hsound.clean.size⟩
  obtain ⟨hsound', hrest', htaken, hlexemes, hdepth⟩ := hk
  refine Succeeds.bind (Succeeds.modify ?_)
  change Succeeds _ k _
  refine Succeeds.bind (cursor_succeeds ?_)
  refine (unrollIndent_succeeds hsound' _ _).andThen ?_
  rintro _ m rfl
  refine (removeKey_succeeds hsound').andThen ?_
  rintro _ m ⟨hm, hmdepth, -, hkey⟩
  refine (allowKey_succeeds hm.sound false).andThen ?_
  rintro _ j ⟨hj, hjdepth, -, hjkeys⟩
  refine (push_succeeds hj.sound _ _).mono ?_
  rintro _ i ⟨hi, hikeeps⟩
  have hpassed := (hm.trans hj).trans hi
  refine ⟨hi.sound, ?_, ?_, ?_, ?_, ?_⟩
  · exact hpassed.reach.same.trans hrest'
  · rw [hpassed.taken, htaken]
  · rw [hpassed.lexemes, hlexemes]
    rfl
  · rw [hikeeps.depth, hjdepth, hmdepth, hdepth]
  · rw [hikeeps.keys, hjkeys]
    exact hkey

theorem fetch_end (hsound : l.Sound) {trail : List Char} (hrest : l.cursor.rest = trail)
    (htrail : Spaced trail) :
    Succeeds fetch l fun _ m => m.Sound ∧ m.cursor.rest = [] ∧ m.taken = l.taken ∧
      m.lexemes = l.lexemes ++ [.streamEnd] ∧ m.depth = l.depth ∧
      ∀ key ∈ m.keys.head?, key.possible = false := by
  have hrest' : l.cursor.rest = trail ++ [] := by rw [hrest, List.append_nil]
  refine lead_succeeds hsound hrest' htrail rfl fun j hpassed hkeeps => ?_
  have hnil : j.cursor.rest = [] := hpassed.reach.rest_of hrest'
  rw [hnil]
  refine (fetchStreamEnd_succeeds hpassed.sound hnil).mono ?_
  rintro _ i ⟨hi, hirest, hitaken, hilexemes, hidepth, hikey⟩
  refine ⟨hi, hirest, ?_, ?_, ?_, hikey⟩
  · rw [hitaken, hpassed.taken]
  · rw [hilexemes, hpassed.lexemes, List.append_nil]
  · rw [hidepth, hkeeps.depth]

end Lexing

end ScriptTree.Yaml
