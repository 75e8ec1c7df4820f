import Septet.Proofs.Quantity.RoundTrip

/-!
# What decoding at an offset gives

An offset before the start or behind the end of a buffer is refused.  At any other
offset the outcome is decided by where the first byte stands that ends a quantity, and
by how many bytes there are (`decode_eq_groupSum`).  The theorem gives the number in
closed form and the bytes that a source has used up, after a refusal too.

A written quantity is a special case: it is decoded wherever it stands
(`decode_encode_within`).
-/

set_option autoImplicit false

namespace Septet.Quantity

/-! ## Where a quantity ends -/

/-- The place of the first byte that ends a quantity. -/
def finalIndex? (bytes : Bytes) : Option Nat :=
  bytes.findIdx? fun byte => byte.toNat < 128

theorem finalIndex?_append {continuing : Bytes} (continues : ∀ byte ∈ continuing, 128 ≤ byte.toNat)
    {final : UInt8} (ends : final.toNat < 128) (rest : Bytes) :
    finalIndex? (continuing ++ final :: rest) = some continuing.length := by
  have none : continuing.findIdx? (fun byte => byte.toNat < 128) = none :=
    List.findIdx?_eq_none_iff.mpr fun byte member =>
      decide_eq_false (Nat.not_lt.mpr (continues byte member))
  simp [finalIndex?, List.findIdx?_append, none, List.findIdx?_cons, ends]

variable {width : Width} {position last : Nat} {bytes : Bytes}

theorem lt_length_of_finalIndex? (found : finalIndex? bytes = some last) : last < bytes.length :=
  (List.findIdx?_eq_some_iff_getElem.mp found).1

/-- Where no byte ends a quantity early enough, the bytes of the greatest length continue it. -/
theorem continues_of_finalIndex? (late : ∀ k, finalIndex? bytes = some k → width.maxBytes ≤ k) :
    ∀ byte ∈ bytes.take width.maxBytes, 128 ≤ byte.toNat := by
  rcases continuing_or_final bytes with all | ⟨continuing, final, rest, rfl, continues, ends⟩
  · exact fun byte member => all byte (List.mem_of_mem_take member)
  · have long := late _ (finalIndex?_append continues ends rest)
    rw [List.take_append_of_le_length long]
    exact fun byte member => continues byte (List.mem_of_mem_take member)

/-! ## Outcomes of reading -/

/-- A number whose last byte comes early enough is the sum of its groups. -/
theorem unpack_of_finalIndex? (found : finalIndex? bytes = some last)
    (early : last < width.maxBytes) :
    unpack width (⟨position, bytes⟩ : BufferSource) =
      .ok (groupSum bytes last % width.modulus)
        ⟨position + (last + 1), bytes.drop (last + 1)⟩ := by
  rcases continuing_or_final bytes with all | ⟨continuing, final, rest, rfl, continues, ends⟩
  · have none : finalIndex? bytes = none := List.findIdx?_eq_none_iff.mpr fun byte member =>
      decide_eq_false (Nat.not_lt.mpr (all byte member))
    rw [none] at found
    cases found
  · rw [finalIndex?_append continues ends] at found
    cases found
    let spelling : Spelling width := ⟨continuing, final, continues, early, ends⟩
    have split : continuing ++ final :: rest = spelling.bytes ++ rest := by
      rw [Spelling.bytes, List.append_assoc, List.singleton_append]
    have within : continuing.length < spelling.bytes.length := by
      rw [Spelling.length_bytes]
      exact Nat.lt_succ_self _
    rw [split, unpack_spelling, Spelling.value, groupSum_append within, Spelling.length_bytes,
      ← spelling.length_bytes, List.drop_left]

/-- Fewer bytes than the width allows, none of which ends a quantity, are used up. -/
theorem unpack_of_short (late : ∀ k, finalIndex? bytes = some k → width.maxBytes ≤ k)
    (short : bytes.length < width.maxBytes) :
    unpack width (⟨position, bytes⟩ : BufferSource) =
      .error (.bufferExhausted (position + bytes.length)) ⟨position + bytes.length, []⟩ := by
  have continues := continues_of_finalIndex? late
  rw [List.take_of_length_le short.le] at continues
  exact unpack_exhausted continues short

/-- As many bytes as the width allows, none of which ends a quantity, are too many. -/
theorem unpack_of_long (late : ∀ k, finalIndex? bytes = some k → width.maxBytes ≤ k)
    (long : width.maxBytes ≤ bytes.length) :
    unpack width (⟨position, bytes⟩ : BufferSource) =
      .error (.overlong width) ⟨position + width.maxBytes, bytes.drop width.maxBytes⟩ := by
  have split := List.take_append_drop width.maxBytes bytes
  conv_lhs => rw [← split]
  exact unpack_overlong (continues_of_finalIndex? late) (List.length_take_of_le long) _

/-! ## Decoding -/

variable (width)

section Inside

variable {data : Bytes} {offset : Int} (start : 0 ≤ offset) (stop : offset ≤ data.length)
include start stop

theorem decode_of_finalIndex? (found : finalIndex? (data.drop offset.toNat) = some last)
    (early : last < width.maxBytes) :
    decode width data offset =
      .ok ⟨groupSum (data.drop offset.toNat) last % width.modulus, last + 1⟩ := by
  rw [decode_inside width start stop, unpack_of_finalIndex? found early]
  simp only [Nat.add_sub_cancel_left]

theorem decode_of_short
    (late : ∀ k, finalIndex? (data.drop offset.toNat) = some k → width.maxBytes ≤ k)
    (short : (data.drop offset.toNat).length < width.maxBytes) :
    decode width data offset = .error (.bufferExhausted data.length) := by
  have fully : offset.toNat + (data.drop offset.toNat).length = data.length := by
    rw [List.length_drop]
    omega
  rw [decode_inside width start stop, unpack_of_short late short, fully]

theorem decode_of_long
    (late : ∀ k, finalIndex? (data.drop offset.toNat) = some k → width.maxBytes ≤ k)
    (long : width.maxBytes ≤ (data.drop offset.toNat).length) :
    decode width data offset = .error (.overlong width) := by
  rw [decode_inside width start stop, unpack_of_long late long]

end Inside

/-- **What decoding gives at any offset, and what it uses up.**  An offset outside the buffer is
refused.  Inside it, a number whose last byte comes early enough is the sum of its groups reduced by
the width; else the bytes end too early, or a quantity continues for too long. -/
theorem decode_eq_groupSum (data : Bytes) (offset : Int) :
    (offset < 0 ∨ data.length < offset →
        decode width data offset = .error (.offsetOutside offset data.length)) ∧
      (0 ≤ offset → offset ≤ data.length →
        ∃ source : BufferSource, BufferSource.startingAt data offset = .ok source ∧
          source.position = offset ∧ source.unread = data.drop offset.toNat ∧
          (∀ last, finalIndex? source.unread = some last → last < width.maxBytes →
            decode width data offset =
                .ok ⟨groupSum source.unread last % 2 ^ width.bits, last + 1⟩ ∧
              unpack width source =
                .ok (groupSum source.unread last % 2 ^ width.bits)
                  ⟨source.position + (last + 1), source.unread.drop (last + 1)⟩) ∧
          ((∀ last, finalIndex? source.unread = some last → width.maxBytes ≤ last) →
            (source.remaining < width.maxBytes →
              decode width data offset = .error (.bufferExhausted data.length) ∧
                unpack width source =
                  .error (.bufferExhausted data.length)
                    ⟨source.position + source.remaining, []⟩) ∧
            (width.maxBytes ≤ source.remaining →
              decode width data offset = .error (.overlong width) ∧
                unpack width source =
                  .error (.overlong width)
                    ⟨source.position + width.maxBytes, source.unread.drop width.maxBytes⟩))) := by
  refine ⟨decode_outside width, fun start stop => ?_⟩
  refine ⟨_, startingAt_inside start stop, Int.toNat_of_nonneg start, rfl, ?_, fun late => ?_⟩
  · intro last found early
    refine ⟨?_, unpack_of_finalIndex? found early⟩
    rw [decode_inside width start stop, unpack_of_finalIndex? found early]
    simp only [Nat.add_sub_cancel_left]
    rfl
  · constructor
    · intro short
      have fully : offset.toNat + (data.drop offset.toNat).length = data.length := by
        rw [List.length_drop]
        omega
      refine ⟨?_, ?_⟩
      · rw [decode_inside width start stop, unpack_of_short late short, fully]
      · rw [unpack_of_short late short, BufferSource.remaining, fully]
    · intro long
      refine ⟨?_, unpack_of_long late long⟩
      rw [decode_inside width start stop, unpack_of_long late long]

/-- The last group of a quantity of full length has bits beyond the width.  One byte more before the
last one is too many, and behind the end there is nothing to decode. -/
theorem decode_eq_groupSum_full :
    decode .bits32 [9, 0x80, 0xFF, 0x80, 0x80, 0x7F] 1 = .ok ⟨4294951039, 5⟩ ∧
      decode .bits32 [0xF6, 0x80, 0xFF, 0x80, 0x80, 0x7F] 0 = .error (.overlong .bits32) ∧
      decode .bits32 [9, 0x80, 0xFF, 0x80, 0x80, 0x7F] 7 = .error (.offsetOutside 7 6) := by
  refine ⟨?_, ?_, ?_⟩
  · obtain ⟨source, _, _, unread, number, _⟩ :=
      (decode_eq_groupSum .bits32 [9, 0x80, 0xFF, 0x80, 0x80, 0x7F] 1).2 (by decide) (by decide)
    rw [unread] at number
    exact (number 4 (by decide) (by decide)).1
  · obtain ⟨source, _, _, unread, _, refused⟩ :=
      (decode_eq_groupSum .bits32 [0xF6, 0x80, 0xFF, 0x80, 0x80, 0x7F] 0).2 (by decide) (by decide)
    rw [BufferSource.remaining, unread] at refused
    have late : ∀ last, finalIndex? [0xF6, 0x80, 0xFF, 0x80, 0x80, 0x7F] = some last → 5 ≤ last := by
      intro last found
      cases found
      decide
    exact ((refused late).2 (by decide)).1
  · exact (decode_eq_groupSum .bits32 [9, 0x80, 0xFF, 0x80, 0x80, 0x7F] 7).1 (by decide)

/-! ## Written quantities -/

/-- **An integer is decoded from its written form wherever it stands**, as the number below two to
the power of the width that it is congruent to. -/
theorem decode_encode_within (value : Int) (before behind : Bytes) :
    ∃ number : Nat, (number : Int) = value % 2 ^ width.bits ∧
      decode width (before ++ encode width value ++ behind) before.length =
        .ok ⟨number, (encode width value).length⟩ := by
  have modulus : (width.modulus : Int) = 2 ^ width.bits := by
    rw [Width.modulus, Nat.pow_eq, Nat.cast_pow, Nat.cast_ofNat]
  have positive : (0 : Int) < width.modulus := by exact_mod_cast width.modulus_pos
  refine ⟨width.reduce value, ?_, ?_⟩
  · rw [Width.reduce, Int.toNat_of_nonneg (Int.emod_nonneg _ (Int.ne_of_gt positive)), modulus]
  · rw [List.append_assoc, decode_append]

end Septet.Quantity
