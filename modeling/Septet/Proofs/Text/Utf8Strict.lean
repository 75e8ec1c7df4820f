import Septet.Proofs.Text.Utf8RoundTrip

/-!
# Only the bytes of a text are read as a text

A first byte that can start a character announces how many bytes follow and holds a
payload (`payload_of_lead?`), and every byte that follows within its limits holds six
more bits (`part_of_continueWith`).  The limits of the second byte exclude the numbers
that need fewer bytes, the surrogates and the numbers that are too large.  So what is
read as a character are the bytes that the character is written with
(`eq_encodeChar_of_step`), and bytes are read as a text exactly if the text is written
with them (`decode_eq_ok_iff`).
-/

set_option autoImplicit false

namespace Septet.Utf8

/-! ## Characters of a number -/

theorem toNat_ofNat {code : Nat} (valid : code < 0xD800 ∨ 0xDFFF < code ∧ code < 0x110000) :
    (Char.ofNat code).toNat = code := by
  have isValid : code.isValidChar := valid
  rw [Char.ofNat, dif_pos isValid]
  rfl

theorem encodeChar_one {code : Nat} (small : code < 0x80) :
    encodeChar (Char.ofNat code) = [UInt8.ofNat code] := by
  simp only [encodeChar, toNat_ofNat (.inl (by omega : code < 0xD800))]
  rw [if_pos small]

theorem encodeChar_two {payload part : Nat} (least : 2 ≤ payload) (most : payload < 0x20)
    (small : part < 0x40) :
    encodeChar (Char.ofNat (payload * 64 + part)) =
      [UInt8.ofNat (0xC0 + payload), UInt8.ofNat (0x80 + part)] := by
  have high : (payload * 64 + part) / 64 = payload := by omega
  have low : (payload * 64 + part) % 64 = part := by omega
  simp only [encodeChar, toNat_ofNat (.inl (by omega : payload * 64 + part < 0xD800))]
  rw [if_neg (by omega), if_pos (by omega), high, low]

/-- Three bytes with the least payload need a second byte of `A0` at least, and those with the
payload of the surrogates one of `9F` at most. -/
theorem encodeChar_three {payload second third : Nat} (most : payload < 0x10)
    (small : second < 0x40) (small' : third < 0x40) (long : payload = 0 → 0x20 ≤ second)
    (noSurrogate : payload = 0xD → second < 0x20) :
    encodeChar (Char.ofNat ((payload * 64 + second) * 64 + third)) =
      [UInt8.ofNat (0xE0 + payload), UInt8.ofNat (0x80 + second), UInt8.ofNat (0x80 + third)] := by
  have valid : (payload * 64 + second) * 64 + third < 0xD800 ∨
      0xDFFF < (payload * 64 + second) * 64 + third ∧
        (payload * 64 + second) * 64 + third < 0x110000 := by
    omega
  have high : ((payload * 64 + second) * 64 + third) / 4096 = payload := by omega
  have middle : ((payload * 64 + second) * 64 + third) / 64 % 64 = second := by omega
  have low : ((payload * 64 + second) * 64 + third) % 64 = third := by omega
  simp only [encodeChar, toNat_ofNat valid]
  rw [if_neg (by omega), if_neg (by omega), if_pos (by omega), high, middle, low]

/-- Four bytes with the least payload need a second byte of `90` at least, and those with the
greatest payload one of `8F` at most. -/
theorem encodeChar_four {payload second third fourth : Nat} (most : payload < 5)
    (small : second < 0x40) (small' : third < 0x40) (small'' : fourth < 0x40)
    (long : payload = 0 → 0x10 ≤ second) (within : payload = 4 → second < 0x10) :
    encodeChar (Char.ofNat (((payload * 64 + second) * 64 + third) * 64 + fourth)) =
      [UInt8.ofNat (0xF0 + payload), UInt8.ofNat (0x80 + second), UInt8.ofNat (0x80 + third),
        UInt8.ofNat (0x80 + fourth)] := by
  have valid : 0xDFFF < ((payload * 64 + second) * 64 + third) * 64 + fourth ∧
      ((payload * 64 + second) * 64 + third) * 64 + fourth < 0x110000 := by
    omega
  have first : (((payload * 64 + second) * 64 + third) * 64 + fourth) / 262144 = payload := by
    omega
  have next : (((payload * 64 + second) * 64 + third) * 64 + fourth) / 4096 % 64 = second := by
    omega
  have middle : (((payload * 64 + second) * 64 + third) * 64 + fourth) / 64 % 64 = third := by
    omega
  have low : (((payload * 64 + second) * 64 + third) * 64 + fourth) % 64 = fourth := by omega
  simp only [encodeChar, toNat_ofNat (.inr valid)]
  rw [if_neg (by omega), if_neg (by omega), if_neg (by omega), first, next, middle, low]

/-! ## Bytes that are accepted -/

theorem eq_ofNat_add {byte : UInt8} {base : Nat} (above : base ≤ byte.toNat) :
    byte = UInt8.ofNat (base + (byte.toNat - base)) := by
  rw [Nat.add_sub_of_le above, UInt8.ofNat_toNat]

/-- What a byte holds that a character can start with. -/
theorem payload_of_lead? {byte : UInt8} {lead : Lead} (accepted : lead? byte = some lead) :
    (∃ payload, payload < 0x80 ∧ byte = UInt8.ofNat payload) ∨
      (∃ payload, 2 ≤ payload ∧ payload < 0x20 ∧ byte = UInt8.ofNat (0xC0 + payload)) ∨
      (∃ payload, payload < 0x10 ∧ byte = UInt8.ofNat (0xE0 + payload)) ∨
      ∃ payload, payload < 5 ∧ byte = UInt8.ofNat (0xF0 + payload) := by
  by_cases one : byte.toNat < 0x80
  · exact .inl ⟨byte.toNat, one, UInt8.ofNat_toNat.symm⟩
  by_cases none : byte.toNat < 0xC2
  · rw [lead?, if_neg one, if_pos none] at accepted
    cases accepted
  by_cases two : byte.toNat < 0xE0
  · exact .inr (.inl ⟨_, by omega, by omega, eq_ofNat_add (by omega)⟩)
  by_cases three : byte.toNat < 0xF0
  · exact .inr (.inr (.inl ⟨_, by omega, eq_ofNat_add (by omega)⟩))
  by_cases four : byte.toNat < 0xF5
  · exact .inr (.inr (.inr ⟨_, by omega, eq_ofNat_add (by omega)⟩))
  · rw [lead?, if_neg one, if_neg none, if_neg two, if_neg three, if_neg four] at accepted
    cases accepted

/-- What a byte holds that follows in a character. -/
theorem part_of_continueWith {left low high total : Nat} {taken rest after : Bytes}
    {character : Char} (least : 0x80 ≤ low) (most : high ≤ 0xBF)
    (found : continueWith (left + 1) low high taken total rest = .character character after) :
    ∃ part behind taken', rest = UInt8.ofNat (0x80 + part) :: behind ∧ part < 0x40 ∧
      low ≤ 0x80 + part ∧ 0x80 + part ≤ high ∧
        continueWith left 0x80 0xBF taken' (total * 64 + part) behind =
          .character character after := by
  cases rest with
  | nil => cases found
  | cons byte behind =>
      by_cases within : low ≤ byte.toNat ∧ byte.toNat ≤ high
      · rw [continueWith, if_pos within] at found
        exact ⟨_, _, _, congrArg (· :: behind) (eq_ofNat_add (by omega)), by omega, by omega,
          by omega, found⟩
      · rw [continueWith, if_neg within] at found
        cases found

/-! ## Characters -/

/-- **What is read as a character are the bytes that it is written with.** -/
theorem eq_encodeChar_of_step {first : UInt8} {rest after : Bytes} {character : Char}
    (found : step first rest = .character character after) :
    first :: rest = encodeChar character ++ after := by
  cases accepted : lead? first with
  | none =>
      rw [step, accepted] at found
      cases found
  | some lead =>
      rcases payload_of_lead? accepted with ⟨payload, small, rfl⟩ | ⟨payload, least, most, rfl⟩ |
        ⟨payload, most, rfl⟩ | ⟨payload, most, rfl⟩
      · simp only [step, lead?_one small] at found
        cases found
        rw [encodeChar_one small]
        rfl
      · simp only [step, lead?_two least most] at found
        obtain ⟨second, _, _, rfl, small, _, _, found⟩ :=
          part_of_continueWith (by omega) (by omega) found
        cases found
        rw [encodeChar_two least most small]
        rfl
      · simp only [step, lead?_three most] at found
        obtain ⟨second, _, _, rfl, small, above, below, found⟩ :=
          part_of_continueWith (by split <;> omega) (by split <;> omega) found
        obtain ⟨third, _, _, rfl, small', _, _, found⟩ :=
          part_of_continueWith (by omega) (by omega) found
        cases found
        rw [encodeChar_three most small small' (fun least => by rw [if_pos least] at above; omega)
          (fun surrogates => by rw [if_pos surrogates] at below; omega)]
        rfl
      · simp only [step, lead?_four most] at found
        obtain ⟨second, _, _, rfl, small, above, below, found⟩ :=
          part_of_continueWith (by split <;> omega) (by split <;> omega) found
        obtain ⟨third, _, _, rfl, small', _, _, found⟩ :=
          part_of_continueWith (by omega) (by omega) found
        obtain ⟨fourth, _, _, rfl, small'', _, _, found⟩ :=
          part_of_continueWith (by omega) (by omega) found
        cases found
        rw [encodeChar_four most small small' small''
          (fun least => by rw [if_pos least] at above; omega)
          (fun greatest => by rw [if_pos greatest] at below; omega)]
        rfl

/-! ## Texts -/

theorem decodeFrom_of_fault {position : Nat} {first : UInt8} {rest range after : Bytes}
    {reason : Reason} (found : step first rest = .fault range reason after) :
    decodeFrom position (first :: rest) = .error ⟨position, range, reason⟩ := by
  rw [decodeFrom]
  split
  · next same =>
      cases found.symm.trans same
      rfl
  · next same => cases found.symm.trans same

theorem decodeFrom_of_character {position : Nat} {first : UInt8} {rest after : Bytes}
    {character : Char} (found : step first rest = .character character after) :
    decodeFrom position (first :: rest) =
      (decodeFrom (position + (encodeChar character).length) after).map (character :: ·) := by
  rw [decodeFrom]
  split
  · next same => cases found.symm.trans same
  · next same =>
      cases found.symm.trans same
      cases decodeFrom (position + (encodeChar character).length) after <;> rfl

theorem eq_encodeChars_of_decodeFrom (position : Nat) (bytes : Bytes) :
    ∀ {characters : List Char}, decodeFrom position bytes = .ok characters →
      bytes = encodeChars characters := by
  induction position, bytes using decodeFrom.induct with
  | case1 position =>
      intro characters read
      rw [decodeFrom] at read
      cases read
      rfl
  | case2 position first rest range reason after found =>
      intro characters read
      rw [decodeFrom_of_fault found] at read
      cases read
  | case3 position first rest character after found error failed ih =>
      intro characters read
      rw [decodeFrom_of_character found, failed] at read
      cases read
  | case4 position first rest character after found others readOthers ih =>
      intro characters read
      rw [decodeFrom_of_character found, readOthers] at read
      cases read
      rw [eq_encodeChar_of_step found, ih readOthers]
      rfl

/-- **Bytes are read as a text exactly if the text is written with them.** -/
theorem decode_eq_ok_iff {bytes : Bytes} {text : String} :
    decode bytes = .ok text ↔ bytes = encode text := by
  constructor
  · intro read
    rw [decode] at read
    cases characters : decodeFrom 0 bytes with
    | error error =>
        rw [characters] at read
        cases read
    | ok found =>
        rw [characters] at read
        cases read
        rw [encode, String.toList_ofList]
        exact eq_encodeChars_of_decodeFrom 0 bytes characters
  · rintro rfl
    exact decode_encode text

end Septet.Utf8
