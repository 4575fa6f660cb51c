import ScriptTree.Text.Bytes

/-!
The bytes of a text are read as that text, and what was read is encoded as the bytes it
was read from.
-/

namespace ScriptTree.Text

/-! Reading the first character, by the number of its bytes. -/

section FirstChar

variable {a b c d : Nat} (rest : List UInt8)

theorem toNat_ofNat_of_lt {n : Nat} (hn : n < 256) : (UInt8.ofNat n).toNat = n := by
  rw [UInt8.toNat_ofNat']
  exact Nat.mod_eq_of_lt hn

theorem isContinuation_ofNat {n : Nat} (hlow : 0x80 ≤ n) (hhigh : n < 0xC0) :
    isContinuation (UInt8.ofNat n) = true := by
  rw [isContinuation, toNat_ofNat_of_lt (by omega)]
  simp [hlow, hhigh]

theorem low6_ofNat {n : Nat} (hhigh : n < 0xC0) : low6 (UInt8.ofNat n) = n % 64 := by
  rw [low6, toNat_ofNat_of_lt (by omega)]

theorem firstChar?_one (ha : a < 0x80) :
    firstChar? (UInt8.ofNat a :: rest) = some (Char.ofNat a, 1) := by
  unfold firstChar?
  simp only [toNat_ofNat_of_lt (show a < 256 by omega), if_pos ha]

theorem firstChar?_two (ha : 0xC2 ≤ a) (ha' : a < 0xE0) (hb : 0x80 ≤ b)
    (hb' : b < 0xC0) :
    firstChar? (UInt8.ofNat a :: UInt8.ofNat b :: rest) =
      some (Char.ofNat (a % 32 * 64 + b % 64), 2) := by
  have hascii : ¬ a < 0x80 := by omega
  unfold firstChar?
  simp only [toNat_ofNat_of_lt (show a < 256 by omega), isContinuation_ofNat hb hb',
    low6_ofNat hb', hascii, ha, ha', if_false, Bool.not_true, Bool.false_eq_true,
    decide_true, Bool.and_self, if_true]

theorem firstChar?_three (ha : 0xE0 ≤ a) (ha' : a < 0xF0) (hb : 0x80 ≤ b)
    (hb' : b < 0xC0) (hc : 0x80 ≤ c) (hc' : c < 0xC0)
    (hcode : 0x800 ≤ a % 16 * 4096 + b % 64 * 64 + c % 64)
    (hscalar : a % 16 * 4096 + b % 64 * 64 + c % 64 < 0xD800 ∨
      0xE000 ≤ a % 16 * 4096 + b % 64 * 64 + c % 64) :
    firstChar? (UInt8.ofNat a :: UInt8.ofNat b :: UInt8.ofNat c :: rest) =
      some (Char.ofNat (a % 16 * 4096 + b % 64 * 64 + c % 64), 3) := by
  have hascii : ¬ a < 0x80 := by omega
  have htwo : ¬ a < 0xE0 := by omega
  have hsurrogate : ¬ (a % 16 * 4096 + b % 64 * 64 + c % 64 < 0x800 ∨
      0xD800 ≤ a % 16 * 4096 + b % 64 * 64 + c % 64 ∧
        a % 16 * 4096 + b % 64 * 64 + c % 64 < 0xE000) := by omega
  unfold firstChar?
  simp only [toNat_ofNat_of_lt (show a < 256 by omega), isContinuation_ofNat hb hb',
    isContinuation_ofNat hc hc', low6_ofNat hb', low6_ofNat hc', hascii, htwo, ha, ha',
    if_false, Bool.not_true, Bool.false_eq_true, decide_true, decide_false,
    Bool.and_false, Bool.and_self, if_true, Bool.or_eq_true, Bool.and_eq_true,
    decide_eq_true_iff, hsurrogate]

theorem firstChar?_four (ha : 0xF0 ≤ a) (ha' : a ≤ 0xF4) (hb : 0x80 ≤ b)
    (hb' : b < 0xC0) (hc : 0x80 ≤ c) (hc' : c < 0xC0) (hd : 0x80 ≤ d) (hd' : d < 0xC0)
    (hcode : 0x10000 ≤ a % 8 * 262144 + b % 64 * 4096 + c % 64 * 64 + d % 64)
    (hscalar : a % 8 * 262144 + b % 64 * 4096 + c % 64 * 64 + d % 64 < 0x110000) :
    firstChar? (UInt8.ofNat a :: UInt8.ofNat b :: UInt8.ofNat c :: UInt8.ofNat d ::
        rest) =
      some (Char.ofNat (a % 8 * 262144 + b % 64 * 4096 + c % 64 * 64 + d % 64), 4) := by
  have hascii : ¬ a < 0x80 := by omega
  have htwo : ¬ a < 0xE0 := by omega
  have hthree : ¬ a < 0xF0 := by omega
  have hlead : ¬ 0xF4 < a := by omega
  unfold firstChar?
  simp only [toNat_ofNat_of_lt (show a < 256 by omega), isContinuation_ofNat hb hb',
    isContinuation_ofNat hc hc', isContinuation_ofNat hd hd', low6_ofNat hb',
    low6_ofNat hc', low6_ofNat hd', hascii, htwo, hthree, hlead, if_false, Bool.not_true,
    Bool.false_eq_true, decide_false, Bool.and_false, Bool.or_self,
    Nat.not_lt.mpr hcode, Nat.not_le.mpr hscalar]

end FirstChar

theorem scalar_of_char (c : Char) :
    c.toNat < 0xD800 ∨ (0xE000 ≤ c.toNat ∧ c.toNat < 0x110000) := by
  rcases c.valid with hlow | ⟨hhigh, hlast⟩
  · exact .inl hlow
  · exact .inr ⟨Nat.lt_of_succ_le hhigh, hlast⟩

theorem ofNat_of_eq_toNat {c : Char} {n : Nat} (hn : n = c.toNat) : Char.ofNat n = c := by
  rw [hn, Char.ofNat_toNat]

theorem encode_cases (c : Char) :
    (c.toNat ≤ 0x7f ∧ String.utf8EncodeChar c = [UInt8.ofNat c.toNat]) ∨
      (0x7f < c.toNat ∧ c.toNat ≤ 0x7ff ∧ String.utf8EncodeChar c =
        [UInt8.ofNat (c.toNat / 64 % 32 + 192), UInt8.ofNat (c.toNat % 64 + 128)]) ∨
      (0x7ff < c.toNat ∧ c.toNat ≤ 0xffff ∧ String.utf8EncodeChar c =
        [UInt8.ofNat (c.toNat / 4096 % 16 + 224), UInt8.ofNat (c.toNat / 64 % 64 + 128),
          UInt8.ofNat (c.toNat % 64 + 128)]) ∨
      (0xffff < c.toNat ∧ String.utf8EncodeChar c =
        [UInt8.ofNat (c.toNat / 262144 % 8 + 240),
          UInt8.ofNat (c.toNat / 4096 % 64 + 128),
          UInt8.ofNat (c.toNat / 64 % 64 + 128), UInt8.ofNat (c.toNat % 64 + 128)]) := by
  by_cases hone : c.toNat ≤ 0x7f
  · exact .inl ⟨hone, if_pos hone⟩
  by_cases htwo : c.toNat ≤ 0x7ff
  · exact .inr (.inl ⟨by omega, htwo, (if_neg hone).trans (if_pos htwo)⟩)
  by_cases hthree : c.toNat ≤ 0xffff
  · exact .inr (.inr (.inl ⟨by omega, hthree,
      (if_neg hone).trans ((if_neg htwo).trans (if_pos hthree))⟩))
  · exact .inr (.inr (.inr ⟨by omega,
      (if_neg hone).trans ((if_neg htwo).trans (if_neg hthree))⟩))

theorem firstChar?_encode_append (c : Char) (rest : List UInt8) :
    firstChar? (String.utf8EncodeChar c ++ rest) =
      some (c, (String.utf8EncodeChar c).length) := by
  have hscalar := scalar_of_char c
  have hself := @ofNat_of_eq_toNat c
  rcases encode_cases c with
    ⟨hone, hencode⟩ | ⟨hlow, htwo, hencode⟩ | ⟨hlow, hthree, hencode⟩ | ⟨hlow, hencode⟩
  · rw [hencode, List.singleton_append, firstChar?_one rest (by omega), hself rfl]
    rfl
  · rw [hencode, List.cons_append, List.singleton_append, firstChar?_two rest,
      hself (by omega)]
    · rfl
    all_goals omega
  · rw [hencode, List.cons_append, List.cons_append, List.singleton_append,
      firstChar?_three rest, hself (by omega)]
    · rfl
    all_goals omega
  · rw [hencode, List.cons_append, List.cons_append, List.cons_append,
      List.singleton_append, firstChar?_four rest, hself (by omega)]
    · rfl
    all_goals omega

/-! Reading all characters. -/

theorem ofChars_append (cs ds : List Char) :
    ofChars (cs ++ ds) = ofChars cs ++ ofChars ds :=
  List.flatMap_append

theorem toBytes_append (s t : String) : toBytes (s ++ t) = toBytes s ++ toBytes t := by
  rw [toBytes, String.toList_append, ofChars_append]
  rfl

theorem piecesAfter_encode_append (c : Char) (before : List Piece) (fuel : Nat)
    (rest : List UInt8) :
    piecesAfter before (fuel + 1) (String.utf8EncodeChar c ++ rest) =
      piecesAfter (.char c :: before) fuel rest := by
  have hfirst := firstChar?_encode_append c rest
  cases hencode : String.utf8EncodeChar c with
  | nil => exact absurd hencode String.utf8EncodeChar_ne_nil
  | cons b bytes =>
      rw [hencode, List.cons_append] at hfirst
      rw [List.cons_append, piecesAfter, hfirst]
      simp

theorem piecesAfter_ofChars (cs : List Char) (before : List Piece) {fuel : Nat}
    (hfuel : cs.length ≤ fuel) :
    piecesAfter before fuel (ofChars cs) = before.reverse ++ cs.map .char := by
  induction cs generalizing before fuel with
  | nil => cases fuel <;> simp [ofChars, piecesAfter]
  | cons c rest ih =>
      cases fuel with
      | zero => simp at hfuel
      | succ fuel =>
          change piecesAfter before (fuel + 1)
            (String.utf8EncodeChar c ++ ofChars rest) = _
          rw [piecesAfter_encode_append, ih _ (by simpa using hfuel)]
          simp

theorem length_le_length_ofChars (cs : List Char) : cs.length ≤ (ofChars cs).length := by
  induction cs with
  | nil => simp
  | cons c rest ih =>
      have hpos : 0 < (String.utf8EncodeChar c).length :=
        List.length_pos_iff.mpr String.utf8EncodeChar_ne_nil
      change rest.length + 1 ≤ (String.utf8EncodeChar c ++ ofChars rest).length
      rw [List.length_append]
      omega

theorem pieces_ofChars (cs : List Char) : pieces (ofChars cs) = cs.map .char :=
  piecesAfter_ofChars cs [] (length_le_length_ofChars cs)

theorem chars_ofChars (cs : List Char) : chars (ofChars cs) = cs := by
  rw [chars, pieces_ofChars, List.map_map]
  exact List.map_id cs

theorem ofBytes?_ofChars (cs : List Char) :
    ofBytes? (ofChars cs) = some (String.ofList cs) := by
  have hall : (pieces (ofChars cs)).all (·.isOf fun _ => true) = true := by
    simp [pieces_ofChars, Piece.isOf]
  rw [ofBytes?, if_pos hall, ofBytes, chars_ofChars]

theorem eq_of_toBytes {s t : String} (hbytes : toBytes s = toBytes t) : s = t := by
  have hread := ofBytes?_ofChars s.toList
  rw [show ofChars s.toList = ofChars t.toList from hbytes, ofBytes?_ofChars] at hread
  simpa using hread.symm

/-! The start of a text. -/

theorem piecesAfter_eq_append (before : List Piece) (fuel : Nat) (bytes : List UInt8) :
    piecesAfter before fuel bytes = before.reverse ++ piecesAfter [] fuel bytes := by
  induction fuel generalizing before bytes with
  | zero => simp [piecesAfter]
  | succ fuel ih =>
      cases bytes with
      | nil => simp [piecesAfter]
      | cons a rest =>
          rw [piecesAfter, piecesAfter]
          split
          case h_1 c n _ => rw [ih (.char c :: before), ih [.char c]]; simp
          case h_2 => rw [ih (.broken a :: before), ih [.broken a]]; simp

theorem chars_cons_of_ascii {a : UInt8} (ha : a.toNat < 0x80) (rest : List UInt8) :
    chars (a :: rest) = Char.ofNat a.toNat :: chars rest := by
  have hfirst : firstChar? (a :: rest) = some (Char.ofNat a.toNat, 1) := if_pos ha
  rw [chars, pieces, List.length_cons, piecesAfter, hfirst]
  simp only [Nat.sub_self, List.drop_zero]
  rw [piecesAfter_eq_append]
  rfl

theorem ofBytes?_eq_none_of_broken {a : UInt8} {rest : List UInt8}
    (hfirst : firstChar? (a :: rest) = none) : ofBytes? (a :: rest) = none := by
  have hpieces : pieces (a :: rest) = .broken a :: pieces rest := by
    rw [pieces, List.length_cons, piecesAfter, hfirst]
    exact piecesAfter_eq_append _ _ _
  simp [ofBytes?, hpieces, Piece.isOf]

/-! Bytes below 0x80 stand for themselves only. -/

theorem ofNat_ne_ofNat {m n : Nat} (hm : m < 256) (hn : n < 256) (hne : m ≠ n) :
    UInt8.ofNat m ≠ UInt8.ofNat n := by
  intro heq
  have hvalue := congrArg UInt8.toNat heq
  rw [toNat_ofNat_of_lt hm, toNat_ofNat_of_lt hn] at hvalue
  exact hne hvalue

theorem eq_of_mem_encode {c d : Char} (hd : d.toNat < 0x80)
    (hmem : UInt8.ofNat d.toNat ∈ String.utf8EncodeChar c) : c = d := by
  apply Decidable.byContradiction
  intro hne
  have hcode : d.toNat ≠ c.toNat := fun heq => hne (Char.toNat_inj.mp heq.symm)
  -- every byte of a longer encoding is at least 0x80
  have hlarge : ∀ n < 256, 0x80 ≤ n → UInt8.ofNat d.toNat ≠ UInt8.ofNat n :=
    fun n hn hle => ofNat_ne_ofNat (by omega) hn (by omega)
  rcases encode_cases c with
    ⟨hone, hencode⟩ | ⟨_, _, hencode⟩ | ⟨_, _, hencode⟩ | ⟨_, hencode⟩
  · rw [hencode, List.mem_singleton] at hmem
    exact ofNat_ne_ofNat (by omega) (by omega) hcode hmem
  · rw [hencode, List.mem_cons, List.mem_singleton] at hmem
    rcases hmem with h | h
    · exact hlarge _ (by omega) (by omega) h
    · exact hlarge _ (by omega) (by omega) h
  · rw [hencode, List.mem_cons, List.mem_cons, List.mem_singleton] at hmem
    rcases hmem with h | h | h
    · exact hlarge _ (by omega) (by omega) h
    · exact hlarge _ (by omega) (by omega) h
    · exact hlarge _ (by omega) (by omega) h
  · rw [hencode, List.mem_cons, List.mem_cons, List.mem_cons, List.mem_singleton] at hmem
    rcases hmem with h | h | h | h
    · exact hlarge _ (by omega) (by omega) h
    · exact hlarge _ (by omega) (by omega) h
    · exact hlarge _ (by omega) (by omega) h
    · exact hlarge _ (by omega) (by omega) h

theorem mem_of_mem_ofChars {cs : List Char} {d : Char} (hd : d.toNat < 0x80)
    (hmem : UInt8.ofNat d.toNat ∈ ofChars cs) : d ∈ cs := by
  obtain ⟨c, hc, hbyte⟩ := List.mem_flatMap.mp hmem
  exact eq_of_mem_encode hd hbyte ▸ hc

/-! The end of a text. -/

theorem getLast?_encode_ne {c d : Char} (hd : d.toNat < 0x80) (hne : c ≠ d) :
    (String.utf8EncodeChar c).getLast? ≠ some (UInt8.ofNat d.toNat) :=
  fun hlast => hne (eq_of_mem_encode hd (List.mem_of_getLast? hlast))

theorem getLast?_ofChars_ne {cs : List Char} {d : Char} (hd : d.toNat < 0x80)
    (hlast : cs.getLast? ≠ some d) :
    (ofChars cs).getLast? ≠ some (UInt8.ofNat d.toNat) := by
  rcases List.eq_nil_or_concat cs with rfl | ⟨front, c, rfl⟩
  · simp [ofChars]
  · have hne : c ≠ d := by simpa using hlast
    have hsingle : ofChars [c] = String.utf8EncodeChar c := by simp [ofChars]
    have hencode := getLast?_encode_ne hd hne
    rw [List.concat_eq_append, ofChars_append, hsingle, List.getLast?_append]
    cases hbyte : (String.utf8EncodeChar c).getLast? with
    | none => exact absurd (List.getLast?_eq_none_iff.mp hbyte) String.utf8EncodeChar_ne_nil
    | some b => simpa [hbyte] using hencode

/-! What was read is written back. -/

section Encode

variable {a b c d : UInt8}

theorem toNat_ofNat_of_scalar {n : Nat}
    (hn : n < 0xD800 ∨ (0xE000 ≤ n ∧ n < 0x110000)) : (Char.ofNat n).toNat = n := by
  have hvalid : n.isValidChar := by
    rcases hn with hlow | ⟨hhigh, hlast⟩
    · exact .inl hlow
    · exact .inr ⟨by omega, hlast⟩
  rw [Char.ofNat, dif_pos hvalid]
  rfl

theorem ofNat_of_toNat_eq {n : Nat} (hn : n = a.toNat) : UInt8.ofNat n = a := by
  rw [hn, UInt8.ofNat_toNat]

theorem isContinuation_iff : isContinuation b = true ↔ 0x80 ≤ b.toNat ∧ b.toNat < 0xC0 := by
  simp [isContinuation]

theorem encode_one (ha : a.toNat < 0x80) :
    String.utf8EncodeChar (Char.ofNat a.toNat) = [a] := by
  have hcode := toNat_ofNat_of_scalar (n := a.toNat) (by omega)
  rcases encode_cases (Char.ofNat a.toNat) with ⟨-, hencode⟩ | h | h | h
  · rw [hencode, hcode, UInt8.ofNat_toNat]
  all_goals omega

theorem encode_two (ha : 0xC2 ≤ a.toNat ∧ a.toNat < 0xE0) (hb : isContinuation b = true) :
    String.utf8EncodeChar (Char.ofNat (a.toNat % 32 * 64 + low6 b)) = [a, b] := by
  rw [isContinuation_iff] at hb
  rw [low6]
  have hcode := toNat_ofNat_of_scalar (n := a.toNat % 32 * 64 + b.toNat % 64) (by omega)
  rcases encode_cases (Char.ofNat (a.toNat % 32 * 64 + b.toNat % 64)) with
    h | ⟨-, -, hencode⟩ | h | h
  case inr.inl =>
    rw [hencode, hcode, ofNat_of_toNat_eq (a := a) (by omega),
      ofNat_of_toNat_eq (a := b) (by omega)]
  all_goals omega

theorem encode_three (ha : 0xE0 ≤ a.toNat ∧ a.toNat < 0xF0) (hb : isContinuation b = true)
    (hc : isContinuation c = true) {code : Nat}
    (hcode : code = a.toNat % 16 * 4096 + low6 b * 64 + low6 c)
    (hscalar : 0x800 ≤ code ∧ (code < 0xD800 ∨ 0xE000 ≤ code)) :
    String.utf8EncodeChar (Char.ofNat code) = [a, b, c] := by
  rw [isContinuation_iff] at hb hc
  rw [low6, low6] at hcode
  have htoNat := toNat_ofNat_of_scalar (n := code) (by omega)
  rcases encode_cases (Char.ofNat code) with h | h | ⟨-, -, hencode⟩ | h
  case inr.inr.inl =>
    rw [hencode, htoNat, ofNat_of_toNat_eq (a := a) (by omega),
      ofNat_of_toNat_eq (a := b) (by omega), ofNat_of_toNat_eq (a := c) (by omega)]
  all_goals omega

theorem encode_four (ha : 0xF0 ≤ a.toNat ∧ a.toNat ≤ 0xF4) (hb : isContinuation b = true)
    (hc : isContinuation c = true) (hd : isContinuation d = true) {code : Nat}
    (hcode : code = a.toNat % 8 * 262144 + low6 b * 4096 + low6 c * 64 + low6 d)
    (hscalar : 0x10000 ≤ code ∧ code < 0x110000) :
    String.utf8EncodeChar (Char.ofNat code) = [a, b, c, d] := by
  rw [isContinuation_iff] at hb hc hd
  rw [low6, low6, low6] at hcode
  have htoNat := toNat_ofNat_of_scalar (n := code) (by omega)
  rcases encode_cases (Char.ofNat code) with h | h | h | ⟨-, hencode⟩
  case inr.inr.inr =>
    rw [hencode, htoNat, ofNat_of_toNat_eq (a := a) (by omega),
      ofNat_of_toNat_eq (a := b) (by omega), ofNat_of_toNat_eq (a := c) (by omega),
      ofNat_of_toNat_eq (a := d) (by omega)]
  all_goals omega

end Encode

theorem exists_of_firstChar? {bytes : List UInt8} {c : Char} {n : Nat}
    (hfirst : firstChar? bytes = some (c, n)) :
    ∃ rest, bytes = String.utf8EncodeChar c ++ rest ∧
      (String.utf8EncodeChar c).length = n := by
  revert hfirst
  fun_cases firstChar? bytes with
  | case2 a rest ha =>
    rintro ⟨⟩
    rw [encode_one ha]
    exact ⟨rest, rfl, rfl⟩
  | case5 a ha b rest hb hlead =>
    rintro ⟨⟩
    rw [encode_two (by simpa using hlead) (by simpa using hb)]
    exact ⟨rest, rfl, rfl⟩
  | case9 a ha b hb hlead c rest hc hthree code hcode =>
    rintro ⟨⟩
    simp only [Bool.or_eq_true, Bool.and_eq_true, decide_eq_true_eq] at hcode
    rw [encode_three (by simpa using hthree) (by simpa using hb) (by simpa using hc) rfl
      (by omega)]
    exact ⟨rest, rfl, rfl⟩
  | case12 a ha b hb hlead c hc hthree d rest code hcode =>
    rintro ⟨⟩
    simp only [Bool.or_eq_true, decide_eq_true_eq, not_or] at hcode
    rw [encode_four (by omega) (by simpa using hb) (by simpa using hc)
      (by simpa using hcode.1.1.1.1) rfl (by omega)]
    exact ⟨rest, rfl, rfl⟩
  | _ => simp

theorem ofPieces_append (ps qs : List Piece) :
    ofPieces (ps ++ qs) = ofPieces ps ++ ofPieces qs :=
  List.flatMap_append

theorem ofPieces_piecesAfter (before : List Piece) {fuel : Nat} {bytes : List UInt8}
    (hfuel : bytes.length ≤ fuel) :
    ofPieces (piecesAfter before fuel bytes) = ofPieces before.reverse ++ bytes := by
  induction fuel generalizing before bytes with
  | zero =>
      obtain rfl : bytes = [] := by simpa using hfuel
      simp [piecesAfter]
  | succ fuel ih =>
      cases bytes with
      | nil => simp [piecesAfter]
      | cons a rest =>
          rw [piecesAfter]
          cases hfirst : firstChar? (a :: rest) with
          | none =>
              rw [ih _ (by simpa using hfuel), List.reverse_cons, ofPieces_append,
                List.append_assoc]
              rfl
          | some first =>
              obtain ⟨c, n⟩ := first
              obtain ⟨tail, htail, hlength⟩ := exists_of_firstChar? hfirst
              have hdrop : rest.drop (n - 1) = tail := by
                have hpos : 0 < n := by
                  rw [← hlength]
                  exact List.length_pos_iff.mpr String.utf8EncodeChar_ne_nil
                have hwhole : (a :: rest).drop n = tail := by
                  rw [htail, ← hlength, List.drop_left]
                rw [← hwhole, ← Nat.succ_pred_eq_of_pos hpos]
                rfl
              have hshort : tail.length ≤ fuel := by
                rw [← hdrop, List.length_drop]
                simp only [List.length_cons] at hfuel
                omega
              simp only [hdrop]
              rw [ih _ hshort, htail, List.reverse_cons, ofPieces_append, List.append_assoc]
              simp [ofPieces, Piece.bytes]

theorem ofPieces_pieces (bytes : List UInt8) : ofPieces (pieces bytes) = bytes :=
  ofPieces_piecesAfter [] (Nat.le_refl _)

theorem ofChars_map_toChar {ps : List Piece} (hps : ∀ p ∈ ps, p.isOf (fun _ => true) = true) :
    ofChars (ps.map Piece.toChar) = ofPieces ps := by
  induction ps with
  | nil => rfl
  | cons p rest ih =>
      have hrest := ih fun q hq => hps q (List.mem_cons_of_mem _ hq)
      cases p with
      | broken byte => simpa [Piece.isOf] using hps (.broken byte) (by simp)
      | char c =>
          change String.utf8EncodeChar c ++ ofChars (rest.map Piece.toChar) = _
          rw [hrest]
          rfl

theorem toBytes_of_ofBytes? {bytes : List UInt8} {text : String}
    (htext : ofBytes? bytes = some text) : toBytes text = bytes := by
  rw [ofBytes?] at htext
  split at htext
  case isFalse => cases htext
  case isTrue hall =>
    rw [← Option.some.inj htext, toBytes, ofBytes, String.toList_ofList, chars,
      ofChars_map_toChar (List.all_eq_true.mp hall), ofPieces_pieces]

/-- Reading replaces nothing exactly in well-formed bytes. -/
theorem ofChars_chars_eq_iff {bytes : List UInt8} :
    ofChars (chars bytes) = bytes ↔ (ofBytes? bytes).isSome = true := by
  constructor
  · intro heq
    rw [← heq, ofBytes?_ofChars]
    rfl
  · intro hsome
    rw [ofBytes?, Option.isSome_ite] at hsome
    rw [chars, ofChars_map_toChar (List.all_eq_true.mp hsome), ofPieces_pieces]

/-! Beginnings of ASCII characters. -/

theorem chars_ofChars_append {cs : List Char} (hcs : ∀ c ∈ cs, c.toNat < 0x80)
    (rest : List UInt8) : chars (ofChars cs ++ rest) = cs ++ chars rest := by
  induction cs with
  | nil => rfl
  | cons c cs ih =>
      rw [List.forall_mem_cons] at hcs
      have hencode : String.utf8EncodeChar c = [UInt8.ofNat c.toNat] :=
        if_pos (Nat.le_of_lt_succ hcs.1)
      have hvalue : (UInt8.ofNat c.toNat).toNat = c.toNat := toNat_ofNat_of_lt (by omega)
      change chars (String.utf8EncodeChar c ++ ofChars cs ++ rest) = _
      rw [hencode, List.append_assoc, List.singleton_append,
        chars_cons_of_ascii (hvalue.symm ▸ hcs.1), hvalue, Char.ofNat_toNat, ih hcs.2]
      rfl

/-- Bytes are read as a text that begins with ASCII characters exactly if they begin with the bytes
of these. -/
theorem prefix_chars_iff {cs : List Char} (hcs : ∀ c ∈ cs, c.toNat < 0x80) {bytes : List UInt8} :
    cs <+: chars bytes ↔ ofChars cs <+: bytes := by
  constructor
  · rintro ⟨ds, hds⟩
    rw [chars] at hds
    obtain ⟨ps, qs, hpieces, hps, -⟩ := List.map_eq_append_iff.mp hds.symm
    have hwhole : ∀ p ∈ ps, p.isOf (fun _ => true) = true := by
      intro p hp
      cases p with
      | char c => rfl
      | broken byte =>
          have hmem : replacement ∈ cs := hps ▸ List.mem_map_of_mem hp
          exact absurd (hcs _ hmem) (by decide)
    rw [← ofPieces_pieces bytes, hpieces, ofPieces_append, ← ofChars_map_toChar hwhole, hps]
    exact List.prefix_append _ _
  · rintro ⟨rest, rfl⟩
    rw [chars_ofChars_append hcs]
    exact List.prefix_append _ _

end ScriptTree.Text
