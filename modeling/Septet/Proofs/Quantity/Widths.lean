import Septet.Proofs.Quantity.Decoding

/-!
# The two widths side by side

Both widths write the same groups and read them in the same way; they differ in how many
bytes a quantity may take and in what is kept of its sum.  What stands at an offset is
therefore read with 32 bits as with 64 and reduced, as long as it takes no more bytes than
32 bits allow.  Where fewer bytes than that are left, both widths run out of them alike.
In every other case the quantity is too long for 32 bits, whatever 64 bits make of it
(`Alongside`, `decode_alongside`).

An integer is written with 32 bits as what is left of it is written with 64
(`encode_bits32`).  The main theorem, `decode_bits32_iff`, says of each outcome of decoding
with 32 bits when it occurs, in terms of decoding with 64.
-/

set_option autoImplicit false

namespace Septet.Quantity

/-! ## Writing -/

theorem encode_bits32 (value : Int) :
    encode .bits32 value = encode .bits64 (value % 2 ^ 32) := by
  have same : Width.bits32.reduce value = Width.bits64.reduce (value % 2 ^ 32) := by
    rw [← Int.natCast_inj, natCast_reduce, natCast_reduce]
    have below : value % 2 ^ 32 < 2 ^ 64 :=
      Int.lt_trans (Int.emod_lt_of_pos value (by decide)) (by decide)
    exact (Int.emod_eq_of_lt (Int.emod_nonneg value (by decide)) below).symm
  rw [encode, encode, same]

/-! ## Reading -/

/-- What decoding gives with 32 bits beside what it gives with 64, in a buffer of a length with some
bytes left. -/
inductive Alongside (length left : Nat) :
    Except StreamError Decoded → Except StreamError Decoded → Prop where
  /-- A quantity that is short enough for both widths. -/
  | value {number consumed : Nat} (short : consumed ≤ 5) :
      Alongside length left (.ok ⟨number % 2 ^ 32, consumed⟩) (.ok ⟨number, consumed⟩)
  /-- The bytes end too early for both widths. -/
  | exhausted (short : left < 5) :
      Alongside length left (.error (.bufferExhausted length)) (.error (.bufferExhausted length))
  /-- A quantity that only 64 bits have bytes for. -/
  | wideValue {number consumed : Nat} (long : 5 < consumed) :
      Alongside length left (.error (.overlong .bits32)) (.ok ⟨number, consumed⟩)
  /-- The bytes end too early for 64 bits, but not for 32. -/
  | wideExhausted (long : 5 ≤ left) :
      Alongside length left (.error (.overlong .bits32)) (.error (.bufferExhausted length))
  | overlong : Alongside length left (.error (.overlong .bits32)) (.error (.overlong .bits64))

namespace Alongside

variable {length left : Nat} {narrow wide : Except StreamError Decoded}
  (both : Alongside length left narrow wide)
include both

/-- With 32 bits a number is decoded where 64 bits decode one from few enough bytes. -/
theorem ok_iff {number consumed : Nat} :
    narrow = .ok ⟨number, consumed⟩ ↔
      consumed ≤ 5 ∧ ∃ whole, wide = .ok ⟨whole, consumed⟩ ∧ number = whole % 2 ^ 32 := by
  cases both with
  | @value whole taken short =>
      simp only [Except.ok.injEq, Decoded.mk.injEq]
      constructor
      · rintro ⟨rfl, rfl⟩
        exact ⟨short, whole, ⟨rfl, rfl⟩, rfl⟩
      · rintro ⟨_, _, ⟨rfl, rfl⟩, rfl⟩
        exact ⟨rfl, rfl⟩
  | wideValue long =>
      refine iff_of_false (fun same => by cases same) ?_
      rintro ⟨short, _, same, _⟩
      cases same
      exact Nat.not_le_of_lt long short
  | exhausted | wideExhausted | overlong => simp

/-- With 32 bits the bytes end too early where they do with 64 and few enough are left. -/
theorem exhausted_iff {position : Nat} :
    narrow = .error (.bufferExhausted position) ↔
      wide = .error (.bufferExhausted position) ∧ left < 5 := by
  cases both with
  | exhausted short => exact ⟨fun same => ⟨same, short⟩, And.left⟩
  | wideExhausted long =>
      refine iff_of_false (fun same => by cases same) ?_
      exact fun ended => Nat.not_lt_of_le long ended.2
  | value | wideValue | overlong => simp

/-- With 32 bits a quantity is too long in every other case. -/
theorem overlong_iff :
    narrow = .error (.overlong .bits32) ↔
      (∀ whole consumed, wide = .ok ⟨whole, consumed⟩ → 5 < consumed) ∧
        ∀ position, wide = .error (.bufferExhausted position) → 5 ≤ left := by
  cases both with
  | value short =>
      refine iff_of_false (fun same => by cases same) ?_
      exact fun other => Nat.not_lt_of_le short (other.1 _ _ rfl)
  | exhausted short =>
      refine iff_of_false (fun same => by cases same) ?_
      exact fun other => Nat.not_le_of_lt short (other.2 _ rfl)
  | wideValue long => simpa using long
  | wideExhausted long => simpa using long
  | overlong => simp

end Alongside

/-- A sum that is kept to 64 bits leaves the same for 32 bits. -/
theorem mod_modulus_mod (total : Nat) :
    total % Width.bits64.modulus % 2 ^ 32 = total % Width.bits32.modulus :=
  Nat.mod_mod_of_dvd total (by decide)

/-- **What the two widths make of the same bytes.**  Where the first byte stands that ends a quantity
decides for both. -/
theorem decode_alongside {data : Bytes} {offset : Int} (start : 0 ≤ offset)
    (stop : offset ≤ data.length) :
    Alongside data.length (data.drop offset.toNat).length
      (decode .bits32 data offset) (decode .bits64 data offset) := by
  by_cases early : ∃ last, finalIndex? (data.drop offset.toNat) = some last ∧ last < 10
  · obtain ⟨last, found, wide⟩ := early
    rw [decode_of_finalIndex? .bits64 start stop found wide]
    by_cases narrow : last < 5
    · rw [decode_of_finalIndex? .bits32 start stop found narrow, ← mod_modulus_mod]
      exact .value narrow
    · have late : ∀ k, finalIndex? (data.drop offset.toNat) = some k → 5 ≤ k := by
        intro k same
        cases found.symm.trans same
        exact Nat.le_of_not_lt narrow
      have long : 5 ≤ (data.drop offset.toNat).length :=
        Nat.le_trans (late last found) (lt_length_of_finalIndex? found).le
      rw [decode_of_long .bits32 start stop late long]
      exact .wideValue (Nat.lt_succ_of_le (late last found))
  · have wide : ∀ k, finalIndex? (data.drop offset.toNat) = some k → 10 ≤ k := fun k found =>
      Nat.le_of_not_lt fun less => early ⟨k, found, less⟩
    have narrow : ∀ k, finalIndex? (data.drop offset.toNat) = some k → 5 ≤ k := fun k found =>
      Nat.le_trans (by decide) (wide k found)
    by_cases few : (data.drop offset.toNat).length < 5
    · rw [decode_of_short .bits32 start stop narrow few,
        decode_of_short .bits64 start stop wide (Nat.lt_trans few (by decide))]
      exact .exhausted few
    · rw [decode_of_long .bits32 start stop narrow (Nat.le_of_not_lt few)]
      by_cases some : (data.drop offset.toNat).length < 10
      · rw [decode_of_short .bits64 start stop wide some]
        exact .wideExhausted (Nat.le_of_not_lt few)
      · rw [decode_of_long .bits64 start stop wide (Nat.le_of_not_lt some)]
        exact .overlong

/-- **An integer is written with 32 bits as its remainder is with 64, and bytes are decoded with 32 bits
as far as they are with 64.**  A number is decoded if 64 bits decode one from at most five bytes, and
it is what is left of that one.  The bytes end too early if they do for 64 bits and fewer than five
are left.  Otherwise a quantity is too long. -/
theorem decode_bits32_iff :
    (∀ value : Int, encode .bits32 value = encode .bits64 (value % 2 ^ 32)) ∧
    ∀ (data : Bytes) (offset : Int), 0 ≤ offset → offset ≤ data.length →
      (∀ number consumed, decode .bits32 data offset = .ok ⟨number, consumed⟩ ↔
        consumed ≤ 5 ∧ ∃ wide, decode .bits64 data offset = .ok ⟨wide, consumed⟩ ∧
          number = wide % 2 ^ 32) ∧
      (∀ position, decode .bits32 data offset = .error (.bufferExhausted position) ↔
        decode .bits64 data offset = .error (.bufferExhausted position) ∧
          data.length - offset < 5) ∧
      (decode .bits32 data offset = .error (.overlong .bits32) ↔
        (∀ wide consumed, decode .bits64 data offset = .ok ⟨wide, consumed⟩ → 5 < consumed) ∧
          ∀ position, decode .bits64 data offset = .error (.bufferExhausted position) →
            5 ≤ data.length - offset) := by
  refine ⟨encode_bits32, fun data offset start stop => ?_⟩
  have both := decode_alongside start stop
  have few : (data.drop offset.toNat).length < 5 ↔ data.length - offset < 5 := by
    rw [List.length_drop]
    omega
  have some : 5 ≤ (data.drop offset.toNat).length ↔ 5 ≤ data.length - offset := by
    rw [List.length_drop]
    omega
  rw [← few, ← some]
  exact ⟨fun number consumed => both.ok_iff, fun position => both.exhausted_iff, both.overlong_iff⟩

/-- Five bytes that continue a quantity are too many for 32 bits, whether the quantity ends behind them
or not; a quantity of five bytes is reduced. -/
theorem decode_bits32_iff_beyond :
    decode .bits32 [7, 0x80, 0xFF, 0x80, 0x80, 0x7F] 1 = .ok ⟨4294951039, 5⟩ ∧
      decode .bits32 [0x80, 0xFF, 0x80, 0x80, 0x80, 1] 0 = .error (.overlong .bits32) ∧
      decode .bits32 [7, 0x80, 0xFF] 1 = .error (.bufferExhausted 3) := by
  obtain ⟨_, decoded⟩ := decode_bits32_iff
  refine ⟨?_, ?_, ?_⟩
  · exact ((decoded [7, 0x80, 0xFF, 0x80, 0x80, 0x7F] 1 (by decide) (by decide)).1 _ _).mpr
      ⟨by decide, 34359722111, by decide, by decide⟩
  · have wide : decode .bits64 [0x80, 0xFF, 0x80, 0x80, 0x80, 1] 0 = .ok ⟨68719460479, 6⟩ := by decide
    refine (decoded [0x80, 0xFF, 0x80, 0x80, 0x80, 1] 0 (by decide) (by decide)).2.2.mpr ⟨?_, ?_⟩
    · intro whole consumed found
      cases wide.symm.trans found
      decide
    · intro position found
      cases wide.symm.trans found
  · exact ((decoded [7, 0x80, 0xFF] 1 (by decide) (by decide)).2.1 _).mpr ⟨by decide, by decide⟩

end Septet.Quantity
