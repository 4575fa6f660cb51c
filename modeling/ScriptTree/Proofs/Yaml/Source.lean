import ScriptTree.Proofs.Text.Bytes
import ScriptTree.Yaml.Source

/-!
A text of allowed characters is read as it is, however its bytes fall into batches.
-/

namespace ScriptTree.Yaml

open Text (ofChars isContinuation isContinuation_ofNat low6_ofNat toNat_ofNat_of_lt encode_cases
  scalar_of_char)

namespace Encoding

section Front

variable {c : Char}

theorem isValidChar_toNat (c : Char) : c.toNat.isValidChar := c.valid

theorem front_ofCode (hallowed : isAllowed c = true) (width : Nat) :
    Front.ofCode c.toNat width = .char c width := by
  rw [Front.ofCode, Text.charOf, if_pos (isValidChar_toNat c), Char.ofNat_toNat, if_pos hallowed]

theorem foldl_low6 {ns : List Nat} (hns : ∀ n ∈ ns, 0x80 ≤ n ∧ n < 0xC0) (lead : Nat) :
    (ns.map UInt8.ofNat).foldl (fun m b => m * 64 + Text.low6 b) lead =
      ns.foldl (fun m n => m * 64 + n % 64) lead := by
  induction ns generalizing lead with
  | nil => rfl
  | cons n rest ih =>
      rw [List.forall_mem_cons] at hns
      rw [List.map_cons, List.foldl_cons, List.foldl_cons, low6_ofNat hns.1.2, ih hns.2]

theorem all_isContinuation {ns : List Nat} (hns : ∀ n ∈ ns, 0x80 ≤ n ∧ n < 0xC0) :
    (ns.map UInt8.ofNat).all isContinuation = true := by
  rw [List.all_map, List.all_eq_true]
  intro n hn
  exact isContinuation_ofNat (hns n hn).1 (hns n hn).2

theorem front8_ofNat {a width : Nat} (ns : List Nat) (tail : List UInt8)
    (hallowed : isAllowed c = true) (hlength : ns.length + 1 = width)
    (hwidth : width8? (UInt8.ofNat a) = some width) (hns : ∀ n ∈ ns, 0x80 ≤ n ∧ n < 0xC0)
    (ha : a < 256)
    (hcode : ns.foldl (fun m n => m * 64 + n % 64)
      (if width = 1 then a else a % Nat.pow 2 (7 - width)) = c.toNat)
    (hleast : ¬ (width = 2 ∧ c.toNat < 0x80 ∨ width = 3 ∧ c.toNat < 0x800 ∨
      width = 4 ∧ c.toNat < 0x10000)) :
    front8 (UInt8.ofNat a) (ns.map UInt8.ofNat ++ tail) = .char c width := by
  have hothers : width - 1 = (ns.map UInt8.ofNat).length := by
    rw [List.length_map]
    omega
  simp only [front8, hwidth, hothers, List.take_left, Nat.lt_irrefl, if_false,
    all_isContinuation hns, Bool.not_true, Bool.false_eq_true, foldl_low6 hns,
    toNat_ofNat_of_lt ha, hcode]
  rw [if_neg (by simpa [or_assoc] using hleast), if_neg (by simp [isValidChar_toNat])]
  exact front_ofCode hallowed width

theorem front8_of_few {b : UInt8} {others : List UInt8} {width : Nat}
    (hwidth : width8? b = some width) (hlength : others.length < width - 1) :
    front8 b others = .short "incomplete UTF-8 octet sequence" := by
  have htake : (others.take (width - 1)).length < width - 1 := by
    rw [List.length_take]
    omega
  simp only [front8, hwidth, htake, if_true]

theorem width8?_ofNat {n : Nat} (hn : n < 256) :
    width8? (UInt8.ofNat n) =
      if n < 0x80 then some 1
      else if n < 0xC0 then none
      else if n < 0xE0 then some 2
      else if n < 0xF0 then some 3
      else if n < 0xF8 then some 4
      else none := by
  simp only [width8?, toNat_ofNat_of_lt hn]

/-- The first byte of a character tells its width, and its bytes are read as the character. -/
theorem exists_encode (c : Char) :
    ∃ b others, String.utf8EncodeChar c = b :: others ∧ others.length ≤ 3 ∧
      width8? b = some (others.length + 1) ∧
      ∀ tail, isAllowed c = true → front8 b (others ++ tail) = .char c (others.length + 1) := by
  have hscalar := scalar_of_char c
  rcases encode_cases c with
    ⟨hone, hencode⟩ | ⟨hlow, htwo, hencode⟩ | ⟨hlow, hthree, hencode⟩ | ⟨hlow, hencode⟩
  · have hwidth : width8? (UInt8.ofNat c.toNat) = some 1 := by
      rw [width8?_ofNat (by omega), if_pos (by omega)]
    refine ⟨_, [], hencode, by simp, hwidth, fun tail hallowed => ?_⟩
    exact front8_ofNat [] tail hallowed rfl hwidth nofun (by omega) rfl (by simp)
  · have hwidth : width8? (UInt8.ofNat (c.toNat / 64 % 32 + 192)) = some 2 := by
      rw [width8?_ofNat (by omega), if_neg (by omega), if_neg (by omega), if_pos (by omega)]
    refine ⟨_, [_], hencode, by simp, hwidth, fun tail hallowed => ?_⟩
    apply front8_ofNat [_] tail hallowed rfl hwidth
    · simp; omega
    · omega
    · simp; omega
    · simp; omega
  · have hwidth : width8? (UInt8.ofNat (c.toNat / 4096 % 16 + 224)) = some 3 := by
      rw [width8?_ofNat (by omega), if_neg (by omega), if_neg (by omega), if_neg (by omega),
        if_pos (by omega)]
    refine ⟨_, [_, _], hencode, by simp, hwidth, fun tail hallowed => ?_⟩
    apply front8_ofNat [_, _] tail hallowed rfl hwidth
    · simp; omega
    · omega
    · simp; omega
    · simp; omega
  · have hwidth : width8? (UInt8.ofNat (c.toNat / 262144 % 8 + 240)) = some 4 := by
      rw [width8?_ofNat (by omega), if_neg (by omega), if_neg (by omega), if_neg (by omega),
        if_neg (by omega), if_pos (by omega)]
    refine ⟨_, [_, _, _], hencode, by simp, hwidth, fun tail hallowed => ?_⟩
    apply front8_ofNat [_, _, _] tail hallowed rfl hwidth
    · simp; omega
    · omega
    · simp; omega
    · simp; omega

end Front

/-- A text whose first character is ASCII has no mark of its encoding. -/
theorem detect_ofChars {cs : List Char} (hfirst : cs.head?.all (·.toNat < 0x80) = true) :
    detect (ofChars cs) = (utf8, 0) := by
  cases cs with
  | nil => rfl
  | cons c rest =>
      have hc : c.toNat < 0x80 := by simpa using hfirst
      rcases encode_cases c with ⟨-, hencode⟩ | h | h | h
      · have hbyte : (UInt8.ofNat c.toNat).toNat = c.toNat := toNat_ofNat_of_lt (by omega)
        have hne : ∀ b : UInt8, 0x80 ≤ b.toNat → UInt8.ofNat c.toNat ≠ b := by
          rintro b hb rfl
          omega
        have hbytes : ofChars (c :: rest) = UInt8.ofNat c.toNat :: ofChars rest := by
          simp [ofChars, hencode]
        rw [hbytes]
        unfold detect
        split
        · next heq => exact absurd (List.cons.inj heq).1 (hne _ (by decide))
        · next heq => exact absurd (List.cons.inj heq).1 (hne _ (by decide))
        · next heq => exact absurd (List.cons.inj heq).1 (hne _ (by decide))
        · rfl
      all_goals omega

end Encoding

namespace Source

theorem ofChars_cons (c : Char) (cs : List Char) :
    ofChars (c :: cs) = String.utf8EncodeChar c ++ ofChars cs := rfl

/-- A batch ends between two characters. -/
theorem readBatch_ofChars {cs : List Char} (hallowed : ∀ c ∈ cs, isAllowed c = true)
    (fuel room : Nat) (before : List Char) (count : Nat) :
    ∃ front back, cs = front ++ back ∧
      readBatch .utf8 fuel room before count (ofChars cs) =
        .ok (front.reverse ++ before, count + front.length, ofChars back) ∧
      (0 < fuel → 4 ≤ room → front = [] → cs = []) := by
  induction fuel generalizing cs room before count with
  | zero => exact ⟨[], cs, rfl, by simp [readBatch], nofun⟩
  | succ fuel ih =>
      cases cs with
      | nil => exact ⟨[], [], rfl, by simp [readBatch, ofChars], fun _ _ _ => rfl⟩
      | cons c cs =>
          rw [List.forall_mem_cons] at hallowed
          obtain ⟨b, others, hencode, hlength, hwidth, hfront⟩ := Encoding.exists_encode c
          have hbytes : ofChars (c :: cs) = b :: (others ++ ofChars cs) := by
            rw [ofChars_cons, hencode, List.cons_append]
          rw [hbytes, readBatch, Encoding.front]
          by_cases hroom : others.length ≤ room - 1
          · -- the bytes of the character are all looked at
            have htake : (others ++ ofChars cs).take (min 3 (room - 1)) =
                others ++ (ofChars cs).take (min 3 (room - 1) - others.length) := by
              rw [List.take_append, List.take_of_length_le (by omega)]
            have hdrop : (others ++ ofChars cs).drop (others.length + 1 - 1) = ofChars cs := by
              rw [Nat.add_sub_cancel, List.drop_left]
            simp only [htake, hfront _ hallowed.1, hdrop]
            split
            next hshort => exact ⟨[], c :: cs, rfl, by simp [hbytes], by omega⟩
            next hfits =>
              obtain ⟨front, back, rfl, hread, -⟩ :=
                ih hallowed.2 (room - (others.length + 1)) (c :: before) (count + 1)
              refine ⟨c :: front, back, rfl, ?_, by simp⟩
              rw [hread, List.reverse_cons, List.append_assoc, List.length_cons]
              simp [Nat.add_assoc, Nat.add_comm 1]
          · have hfew : ((others ++ ofChars cs).take (min 3 (room - 1))).length <
                others.length + 1 - 1 := by
              rw [List.length_take]
              omega
            rw [Encoding.front8_of_few hwidth hfew]
            refine ⟨[], c :: cs, rfl, by simp [hbytes], fun _ hroom' => ?_⟩
            omega

theorem readBatches_ofChars {cs : List Char} (hallowed : ∀ c ∈ cs, isAllowed c = true)
    {fuel room : Nat} (hfuel : cs.length < fuel) (hroom : 4 ≤ room) (before : List Char)
    (batches : List Nat) :
    ∃ sizes, readBatches .utf8 fuel room before batches (ofChars cs) =
      ⟨before.reverse ++ cs, sizes, none⟩ := by
  induction fuel generalizing cs room before batches with
  | zero => omega
  | succ fuel ih =>
      obtain ⟨front, back, rfl, hread, hprogress⟩ :=
        readBatch_ofChars hallowed room room before 0
      rw [readBatches, hread]
      cases front with
      | nil =>
          obtain rfl : back = [] := by simpa using hprogress (by omega) hroom rfl
          exact ⟨batches.reverse, by simp [ofChars]⟩
      | cons c front =>
          have hback : ∀ c ∈ back, isAllowed c = true := by
            intro d hd
            exact hallowed d (by simp [hd])
          have hshorter : back.length < fuel := by
            rw [List.length_append, List.length_cons] at hfuel
            omega
          obtain ⟨sizes, hrest⟩ := ih hback hshorter (show 4 ≤ batchSize by decide)
            ((c :: front).reverse ++ before) ((front.length + 1) :: batches)
          refine ⟨sizes, ?_⟩
          rw [Nat.zero_add, List.length_cons]
          simpa using hrest

theorem ofBytes_ofChars {cs : List Char} (hallowed : ∀ c ∈ cs, isAllowed c = true)
    (hfirst : cs.head?.all (·.toNat < 0x80) = true) :
    (ofBytes (ofChars cs)).characters = cs ∧ (ofBytes (ofChars cs)).damage = none := by
  have hlength := Text.length_le_length_ofChars cs
  obtain ⟨sizes, hread⟩ := readBatches_ofChars hallowed
    (show cs.length < (ofChars cs).length + 1 by omega) (show 4 ≤ batchSize - 0 by decide) [] []
  have hsource : ofBytes (ofChars cs) = ⟨cs, sizes, none⟩ := by
    simpa [ofBytes, Encoding.detect_ofChars hfirst] using hread
  rw [hsource]
  exact ⟨rfl, rfl⟩

end Source

end ScriptTree.Yaml
