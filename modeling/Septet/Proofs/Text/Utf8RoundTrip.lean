import Septet.Text.Utf8

/-!
# Texts are read back from their UTF-8 bytes

A character is written with one to four bytes, and the first byte announces how many
follow.  Each of the three theorems on first bytes says what a byte with a given
payload announces; the limits of the byte behind it are met because the number of
the character needs all its bytes, is no surrogate and is not too large.  So the
bytes of a character are read as that character whatever comes behind them
(`step_encodeChar`), and a text is read back from its bytes (`decode_encode`), also where
bytes that are no text would be escaped (`decodeEscaping_encode`).
-/

set_option autoImplicit false

namespace Septet.Utf8

/-! ## First bytes -/

theorem lead?_one {code : Nat} (small : code < 0x80) :
    lead? (UInt8.ofNat code) = some ⟨0, 0x80, 0xBF, code⟩ := by
  have value : (UInt8.ofNat code).toNat = code := by
    rw [UInt8.toNat_ofNat']
    omega
  simp only [lead?, value, small, if_true]

theorem lead?_two {payload : Nat} (least : 2 ≤ payload) (small : payload < 0x20) :
    lead? (UInt8.ofNat (0xC0 + payload)) = some ⟨1, 0x80, 0xBF, payload⟩ := by
  have value : (UInt8.ofNat (0xC0 + payload)).toNat = 0xC0 + payload := by
    rw [UInt8.toNat_ofNat']
    omega
  simp only [lead?, value]
  rw [if_neg (by omega), if_neg (by omega), if_pos (by omega), Nat.add_sub_cancel_left]

theorem lead?_three {payload : Nat} (small : payload < 0x10) :
    lead? (UInt8.ofNat (0xE0 + payload)) =
      some ⟨2, if payload = 0 then 0xA0 else 0x80, if payload = 0xD then 0x9F else 0xBF,
        payload⟩ := by
  have value : (UInt8.ofNat (0xE0 + payload)).toNat = 0xE0 + payload := by
    rw [UInt8.toNat_ofNat']
    omega
  have least : 0xE0 + payload = 0xE0 ↔ payload = 0 := by omega
  have surrogate : 0xE0 + payload = 0xED ↔ payload = 0xD := by omega
  simp only [lead?, value, least, surrogate]
  rw [if_neg (by omega), if_neg (by omega), if_neg (by omega), if_pos (by omega),
    Nat.add_sub_cancel_left]

theorem lead?_four {payload : Nat} (small : payload < 5) :
    lead? (UInt8.ofNat (0xF0 + payload)) =
      some ⟨3, if payload = 0 then 0x90 else 0x80, if payload = 4 then 0x8F else 0xBF,
        payload⟩ := by
  have value : (UInt8.ofNat (0xF0 + payload)).toNat = 0xF0 + payload := by
    rw [UInt8.toNat_ofNat']
    omega
  have least : 0xF0 + payload = 0xF0 ↔ payload = 0 := by omega
  have greatest : 0xF0 + payload = 0xF4 ↔ payload = 4 := by omega
  simp only [lead?, value, least, greatest]
  rw [if_neg (by omega), if_neg (by omega), if_neg (by omega), if_neg (by omega),
    if_pos (by omega), Nat.add_sub_cancel_left]

/-! ## Bytes behind the first -/

/-- A byte within the limits adds six bits. -/
theorem continueWith_cons {left low high total part : Nat} {taken rest : Bytes}
    (small : part < 0x40) (above : low ≤ 0x80 + part) (below : 0x80 + part ≤ high) :
    continueWith (left + 1) low high taken total (UInt8.ofNat (0x80 + part) :: rest) =
      continueWith left 0x80 0xBF (taken ++ [UInt8.ofNat (0x80 + part)]) (total * 64 + part)
        rest := by
  have value : (UInt8.ofNat (0x80 + part)).toNat = 0x80 + part := by
    rw [UInt8.toNat_ofNat']
    omega
  simp only [continueWith, value]
  rw [if_pos ⟨above, below⟩, Nat.add_sub_cancel_left]

/-! ## Characters -/

/-- The bytes of a character are read as that character, whatever comes behind them. -/
theorem step_encodeChar (character : Char) (rest : Bytes) :
    ∃ first tail, encodeChar character = first :: tail ∧
      step first (tail ++ rest) = .character character rest := by
  have valid : character.toNat < 0xD800 ∨ 0xDFFF < character.toNat ∧ character.toNat < 0x110000 :=
    character.valid
  simp only [encodeChar]
  split
  · next one =>
      refine ⟨_, _, rfl, ?_⟩
      simp only [step, lead?_one one, continueWith, List.nil_append, Char.ofNat_toNat]
  · split
    · next two =>
        refine ⟨_, _, rfl, ?_⟩
        rw [step, lead?_two (by omega) (by omega)]
        simp only [List.cons_append, List.nil_append]
        rw [continueWith_cons (by omega) (by omega) (by omega)]
        have number : character.toNat / 64 * 64 + character.toNat % 64 = character.toNat := by
          omega
        rw [number, continueWith, Char.ofNat_toNat]
    · split
      · next three =>
          refine ⟨_, _, rfl, ?_⟩
          rw [step, lead?_three (by omega)]
          simp only [List.cons_append, List.nil_append]
          rw [continueWith_cons (by omega) (by split <;> omega) (by split <;> omega),
            continueWith_cons (by omega) (by omega) (by omega)]
          have number : (character.toNat / 4096 * 64 + character.toNat / 64 % 64) * 64 +
              character.toNat % 64 = character.toNat := by
            omega
          rw [number, continueWith, Char.ofNat_toNat]
      · next four =>
          refine ⟨_, _, rfl, ?_⟩
          rw [step, lead?_four (by omega)]
          simp only [List.cons_append, List.nil_append]
          rw [continueWith_cons (by omega) (by split <;> omega) (by split <;> omega),
            continueWith_cons (by omega) (by omega) (by omega),
            continueWith_cons (by omega) (by omega) (by omega)]
          have number : ((character.toNat / 262144 * 64 + character.toNat / 4096 % 64) * 64 +
              character.toNat / 64 % 64) * 64 + character.toNat % 64 = character.toNat := by
            omega
          rw [number, continueWith, Char.ofNat_toNat]

/-! ## Texts -/

/-- What is written for characters starts with the first one, and the others come behind it. -/
theorem exists_step_encodeChars (character : Char) (characters : List Char) :
    ∃ first rest, encodeChars (character :: characters) = first :: rest ∧
      step first rest = .character character (encodeChars characters) := by
  obtain ⟨first, tail, bytes, found⟩ := step_encodeChar character (encodeChars characters)
  refine ⟨first, tail ++ encodeChars characters, ?_, found⟩
  rw [encodeChars, List.flatMap_cons, bytes]
  rfl

/-- Characters are read back from their bytes, at any position. -/
theorem decodeFrom_encodeChars (characters : List Char) :
    ∀ position, decodeFrom position (encodeChars characters) = .ok characters := by
  induction characters with
  | nil =>
      intro position
      rw [encodeChars, List.flatMap_nil, decodeFrom]
  | cons character characters ih =>
      intro position
      obtain ⟨first, rest, start, found⟩ := exists_step_encodeChars character characters
      rw [start, decodeFrom]
      split
      · next fault => exact absurd (found.symm.trans fault) (by simp)
      · next same =>
          obtain ⟨rfl, rfl⟩ := Step.character.inj (found.symm.trans same)
          rw [ih]

/-- **A text is read back from its bytes.** -/
theorem decode_encode (text : String) : decode (encode text) = .ok text := by
  rw [decode, encode, decodeFrom_encodeChars]
  simp only [Except.map, String.ofList_toList]

theorem decodeEscapingChars_encodeChars (characters : List Char) :
    decodeEscapingChars (encodeChars characters) = characters := by
  induction characters with
  | nil => rw [encodeChars, List.flatMap_nil, decodeEscapingChars]
  | cons character characters ih =>
      obtain ⟨first, rest, start, found⟩ := exists_step_encodeChars character characters
      rw [start, decodeEscapingChars]
      split
      · next fault => exact absurd (found.symm.trans fault) (by simp)
      · next same =>
          obtain ⟨rfl, rfl⟩ := Step.character.inj (found.symm.trans same)
          rw [ih]

/-- Nothing is escaped of the bytes of a text. -/
theorem decodeEscaping_encode (text : String) : decodeEscaping (encode text) = text := by
  rw [decodeEscaping, encode, decodeEscapingChars_encodeChars, String.ofList_toList]

end Septet.Utf8
