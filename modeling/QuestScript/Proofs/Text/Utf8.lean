import QuestScript.Text.Utf8
/-!
Texts come back from their bytes: what is encoded as UTF-8 is decoded to the same text. A character is
read back from its form, one form for each length. That the form is the shortest one, and that no
character is a surrogate, is what the decoder asks of the second byte.
-/

namespace QuestScript.Text.Utf8

section

variable {n : Nat}

theorem toNat_ofNat (hByte : n < 256) : (UInt8.ofNat n).toNat = n := UInt8.toNat_ofNat_of_lt' hByte

/-- Six bits behind the mark of a continuation are a continuation byte. -/
theorem isContinuation_ofNat (hPayload : n < 64) : isContinuation (UInt8.ofNat (n + 128)) = true := by
  have hByte := toNat_ofNat (show n + 128 < 256 by omega)
  simp only [isContinuation, Bool.and_eq_true, decide_eq_true_eq, UInt8.le_iff_toNat_le, hByte,
    UInt8.reduceToNat]
  omega

/-- A continuation byte gives back its six bits. -/
theorem payload_ofNat (hPayload : n < 64) : payload (UInt8.ofNat (n + 128)) = n := by
  rw [payload, toNat_ofNat (by omega)]
  omega

/-! ### Lead bytes -/

theorem readChar_one (hLead : n < 0x80) (rest : List UInt8) :
    readChar (UInt8.ofNat n) rest = .char (Char.ofNat n) rest := by
  have hByte := toNat_ofNat (show n < 256 by omega)
  rw [readChar, if_pos (by simpa [UInt8.lt_iff_toNat_lt, hByte] using hLead), hByte]

/-- The lead byte of two is told from the others by its value. -/
theorem readChar_two (hLow : 2 ≤ n) (hHigh : n < 32) (rest : List UInt8) :
    readChar (UInt8.ofNat (n + 192)) rest = readTwo (UInt8.ofNat (n + 192)) rest := by
  have hByte := toNat_ofNat (show n + 192 < 256 by omega)
  simp only [readChar, UInt8.lt_iff_toNat_lt, hByte, UInt8.reduceToNat]
  rw [if_neg (by omega), if_neg (by omega), if_pos (by omega)]

theorem readChar_three (hHigh : n < 16) (rest : List UInt8) :
    readChar (UInt8.ofNat (n + 224)) rest = readThree (UInt8.ofNat (n + 224)) rest := by
  have hByte := toNat_ofNat (show n + 224 < 256 by omega)
  simp only [readChar, UInt8.lt_iff_toNat_lt, hByte, UInt8.reduceToNat]
  rw [if_neg (by omega), if_neg (by omega), if_neg (by omega), if_pos (by omega)]

theorem readChar_four (hHigh : n < 5) (rest : List UInt8) :
    readChar (UInt8.ofNat (n + 240)) rest = readFour (UInt8.ofNat (n + 240)) rest := by
  have hByte := toNat_ofNat (show n + 240 < 256 by omega)
  simp only [readChar, UInt8.lt_iff_toNat_lt, hByte, UInt8.reduceToNat]
  rw [if_neg (by omega), if_neg (by omega), if_neg (by omega), if_neg (by omega),
    if_pos (by omega)]

/-- The second byte of a form of three bytes. -/
theorem allowsSecond_three {second : Nat} (hHigh : n < 16) (hSecond : second < 64)
    (hShortest : n = 0 → 32 ≤ second) (hSurrogate : n = 13 → second < 32) :
    allowsSecond (UInt8.ofNat (n + 224)) (UInt8.ofNat (second + 128)) = true := by
  have hLead := toNat_ofNat (show n + 224 < 256 by omega)
  have hByte := toNat_ofNat (show second + 128 < 256 by omega)
  simp only [allowsSecond, isContinuation_ofNat hSecond, Bool.true_and, Bool.and_eq_true,
    Bool.or_eq_true, bne_iff_ne, decide_eq_true_eq, ne_eq, ← UInt8.toNat_inj, UInt8.le_iff_toNat_le,
    UInt8.lt_iff_toNat_lt, hLead, hByte, UInt8.reduceToNat]
  omega

/-- The second byte of a form of four bytes. -/
theorem allowsSecond_four {second : Nat} (hHigh : n < 5) (hSecond : second < 64)
    (hShortest : n = 0 → 16 ≤ second) (hLast : n = 4 → second < 16) :
    allowsSecond (UInt8.ofNat (n + 240)) (UInt8.ofNat (second + 128)) = true := by
  have hLead := toNat_ofNat (show n + 240 < 256 by omega)
  have hByte := toNat_ofNat (show second + 128 < 256 by omega)
  simp only [allowsSecond, isContinuation_ofNat hSecond, Bool.true_and, Bool.and_eq_true,
    Bool.or_eq_true, bne_iff_ne, decide_eq_true_eq, ne_eq, ← UInt8.toNat_inj, UInt8.le_iff_toNat_le,
    UInt8.lt_iff_toNat_lt, hLead, hByte, UInt8.reduceToNat]
  omega

end

/-! ### Characters -/

/-- A character is read back from its bytes, whatever comes after them. -/
theorem readChar_encode (c : Char) (rest : List UInt8) :
    ∃ lead more, String.utf8EncodeChar c = lead :: more ∧
      readChar lead (more ++ rest) = .char c rest := by
  have hValid : c.toNat < 0xD800 ∨ 0xDFFF < c.toNat ∧ c.toNat < 0x110000 := c.valid
  have hChar {n : Nat} (hEq : n = c.toNat) : Char.ofNat n = c := hEq ▸ Char.ofNat_toNat c
  unfold String.utf8EncodeChar
  rw [Char.toNat_val]
  dsimp only
  generalize c.toNat = v at hValid hChar
  by_cases hOne : v ≤ 0x7F
  · rw [if_pos hOne]
    refine ⟨_, _, rfl, ?_⟩
    rw [readChar_one (by omega), hChar rfl]
    rfl
  rw [if_neg hOne]
  by_cases hTwo : v ≤ 0x7FF
  · rw [if_pos hTwo]
    refine ⟨_, _, rfl, ?_⟩
    rw [readChar_two (by omega) (by omega), List.singleton_append, readTwo,
      if_pos (isContinuation_ofNat (by omega)), payload_ofNat (by omega), toNat_ofNat (by omega),
      hChar (by omega)]
  rw [if_neg hTwo]
  by_cases hThree : v ≤ 0xFFFF
  · rw [if_pos hThree]
    refine ⟨_, _, rfl, ?_⟩
    have hSecond : allowsSecond (UInt8.ofNat (v / 4096 % 16 + 224))
        (UInt8.ofNat (v / 64 % 64 + 128)) = true :=
      allowsSecond_three (by omega) (by omega) (by omega) (by omega)
    simp only [List.cons_append, List.nil_append]
    rw [readChar_three (by omega), readThree, hSecond, if_neg (by decide),
      if_pos (isContinuation_ofNat (by omega)), payload_ofNat (by omega), payload_ofNat (by omega),
      toNat_ofNat (by omega), hChar (by omega)]
  · rw [if_neg hThree]
    refine ⟨_, _, rfl, ?_⟩
    have hSecond : allowsSecond (UInt8.ofNat (v / 262144 % 8 + 240))
        (UInt8.ofNat (v / 4096 % 64 + 128)) = true :=
      allowsSecond_four (by omega) (by omega) (by omega) (by omega)
    have hThird : isContinuation (UInt8.ofNat (v / 64 % 64 + 128)) = true :=
      isContinuation_ofNat (by omega)
    simp only [List.cons_append, List.nil_append]
    rw [readChar_four (by omega), readFour, hSecond, if_neg (by decide), hThird,
      if_neg (by decide), if_pos (isContinuation_ofNat (by omega)), payload_ofNat (by omega),
      payload_ofNat (by omega), payload_ofNat (by omega), toNat_ofNat (by omega), hChar (by omega)]

/-! ### Texts -/

/-- Encoding and decoding are inverse on every text, wherever in a file it begins. -/
theorem decodeFrom_encode (position : Nat) (text : List Char) :
    decodeFrom position (encode text) = .ok text := by
  induction text generalizing position with
  | nil =>
      rw [encode, List.flatMap_nil, decodeFrom]
  | cons c text ih =>
      obtain ⟨lead, more, hBytes, hRead⟩ := readChar_encode c (encode text)
      rw [encode, List.flatMap_cons, hBytes, ← encode, List.cons_append, decodeFrom]
      split
      · next hFault =>
          rw [hRead] at hFault
          cases hFault
      · next hFound =>
          rw [hRead] at hFound
          cases hFound
          rw [ih]

/-- A text comes back from its bytes. -/
theorem decode_encode (text : List Char) : decode (encode text) = .ok text :=
  decodeFrom_encode 0 text

end QuestScript.Text.Utf8
