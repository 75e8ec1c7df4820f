import Mathlib.Data.Set.Function
import Septet.Proofs.Quantity.Sequence

/-!
# Canonical spellings

A number has many spellings, but it is written in one way.  A spelling is canonical when
no group of zero stands behind other groups and when the last group of a full length has
no bits beyond the width (`Spelling.Canonical`).

Nothing is dropped of the groups of a canonical spelling
(`Spelling.Canonical.groupSum_lt`), and groups that do not end in zero are those that
their sum is written with (`encodeNat_groupSum`); so a canonical spelling is what its
value is written as (`Spelling.Canonical.encode_value`).  Conversely what is written is
canonical (`Spelling.canonical_of_encode`), and it is no longer than any spelling of the
same value (`Spelling.length_encode_value_le`).  Hence writing what has been read gives
the bytes back exactly if they are canonical (`encode_eq_iff_canonical`).
-/

set_option autoImplicit false

namespace Septet.Quantity

variable {width : Width}

/-! ## Sums of groups are small -/

theorem complementSum_lt (bytes : Bytes) (count : Nat) : complementSum bytes count < 128 ^ count := by
  induction count with
  | zero =>
      rw [complementSum, Finset.sum_range_zero]
      exact Nat.one_pos
  | succ count ih =>
      have group : 127 - (bytes.getD count 0).toNat % 128 ≤ 127 := Nat.sub_le _ _
      have top := Nat.mul_le_mul_right (128 ^ count) group
      rw [complementSum, Finset.sum_range_succ, ← complementSum, Nat.pow_succ]
      omega

/-- The sum of the groups is below the place behind the last one, if the last byte ends them. -/
theorem groupSum_lt {bytes : Bytes} {last : Nat} {limit : Nat}
    (small : (bytes.getD last 0).toNat < limit) : groupSum bytes last < limit * 128 ^ last := by
  have others := complementSum_lt bytes last
  have top := Nat.mul_le_mul_right (128 ^ last) (Nat.succ_le_of_lt small)
  rw [Nat.succ_mul] at top
  rw [groupSum]
  omega

/-! ## Limits of the last group -/

/-- What the last group of a full length has to stay below to keep within the width. -/
def lastLimit (width : Width) : Nat :=
  2 ^ (width.bits - 7 * (width.maxBytes - 1))

/-- The limit of the last group makes up for what the other groups leave of the width. -/
theorem lastLimit_mul (width : Width) :
    lastLimit width * 128 ^ (width.maxBytes - 1) = width.modulus := by
  cases width <;> decide

example : lastLimit .bits32 = 16 ∧ lastLimit .bits64 = 2 := by decide

/-- Fewer groups than a full length are all within the width. -/
theorem pow_le_modulus {count : Nat} (short : count < width.maxBytes) :
    128 ^ count ≤ width.modulus := by
  have others : 128 ^ count ≤ 128 ^ (width.maxBytes - 1) :=
    Nat.pow_le_pow_right (by decide) (Nat.le_sub_one_of_lt short)
  have some : 0 < lastLimit width := Nat.two_pow_pos _
  rw [← lastLimit_mul]
  exact Nat.le_trans others (Nat.le_mul_of_pos_left _ some)

/-! ## Canonical spellings -/

namespace Spelling

/-- Nothing in a spelling could be left out. -/
structure Canonical (spelling : Spelling width) : Prop where
  /-- No group of zero stands behind others. -/
  trimmed : spelling.bytes.length = 1 ∨ spelling.final ≠ 0
  /-- The last group of a full length has no bits beyond the width. -/
  within : spelling.bytes.length < width.maxBytes ∨ spelling.final.toNat < lastLimit width

instance (spelling : Spelling width) : Decidable spelling.Canonical :=
  decidable_of_iff
    ((spelling.bytes.length = 1 ∨ spelling.final ≠ 0) ∧
      (spelling.bytes.length < width.maxBytes ∨ spelling.final.toNat < lastLimit width))
    ⟨fun ⟨trimmed, within⟩ => ⟨trimmed, within⟩,
      fun canonical => ⟨canonical.trimmed, canonical.within⟩⟩

theorem getD_final (spelling : Spelling width) :
    spelling.bytes.getD spelling.continuing.length 0 = spelling.final := by
  rw [bytes, List.getD_append_right _ _ _ _ le_rfl, Nat.sub_self, List.getD_cons_zero]

theorem groupSum_lt_pow (spelling : Spelling width) :
    groupSum spelling.bytes spelling.continuing.length < 128 ^ spelling.bytes.length := by
  have small : (spelling.bytes.getD spelling.continuing.length 0).toNat < 128 := by
    rw [getD_final]
    exact spelling.ends
  rw [length_bytes, Nat.pow_succ, Nat.mul_comm]
  exact groupSum_lt small

/-- **The groups of a canonical spelling are within the width.** -/
theorem Canonical.groupSum_lt {spelling : Spelling width} (canonical : spelling.Canonical) :
    groupSum spelling.bytes spelling.continuing.length < width.modulus := by
  by_cases short : spelling.bytes.length < width.maxBytes
  · exact Nat.lt_of_lt_of_le spelling.groupSum_lt_pow (pow_le_modulus short)
  · have small := canonical.within.resolve_left short
    have full : spelling.continuing.length = width.maxBytes - 1 := by
      have within := spelling.length_lt
      rw [length_bytes] at short
      omega
    rw [← spelling.getD_final] at small
    rw [← lastLimit_mul, ← full]
    exact Quantity.groupSum_lt small

end Spelling

/-! ## Written numbers are canonical -/

/-- Groups that do not end in zero are those that their sum is written with. -/
theorem encodeNat_groupSum {final : UInt8} (ends : final.toNat < 128) {continuing : Bytes} :
    (∀ byte ∈ continuing, 128 ≤ byte.toNat) → (continuing = [] ∨ final ≠ 0) →
      encodeNat (groupSum (continuing ++ [final]) continuing.length) = continuing ++ [final] := by
  induction continuing with
  | nil =>
      intro _ _
      rw [List.nil_append, List.length_nil, groupSum_cons_zero, encodeNat, if_pos ends,
        UInt8.ofNat_toNat]
  | cons byte continuing ih =>
      intro continues trimmed
      obtain ⟨large, others⟩ := List.forall_mem_cons.mp continues
      have nonzero : final ≠ 0 := trimmed.resolve_left (List.cons_ne_nil _ _)
      have written := ih others (.inr nonzero)
      rw [List.cons_append, List.length_cons, groupSum_cons_succ]
      -- the sum of the groups behind the first is not zero, since zero is written as one byte
      have some : groupSum (continuing ++ [final]) continuing.length ≠ 0 := by
        intro zero
        rw [zero, encodeNat, if_pos (by decide)] at written
        have last := congrArg List.getLast? written
        rw [List.getLast?_concat] at last
        exact nonzero (Option.some.inj last).symm
      have below : byte.toNat < 256 := byte.toNat_lt
      have group : (127 - byte.toNat % 128 +
          128 * groupSum (continuing ++ [final]) continuing.length) % 128 = 255 - byte.toNat := by
        omega
      have rest : (127 - byte.toNat % 128 +
          128 * groupSum (continuing ++ [final]) continuing.length) / 128 =
            groupSum (continuing ++ [final]) continuing.length := by
        omega
      have same : 255 - (255 - byte.toNat) = byte.toNat := by omega
      rw [encodeNat, if_neg (by omega), group, rest, written, same, UInt8.ofNat_toNat]

/-- The last group that a number is written with is zero only if the number is. -/
theorem final_ne_zero_of_encodeNat (value : Nat) : ∀ {continuing : Bytes} {final : UInt8},
    encodeNat value = continuing ++ [final] → 0 < value → final ≠ 0 := by
  fun_induction encodeNat value with
  | case1 value small =>
      intro continuing final written some zero
      have last := congrArg List.getLast? written
      rw [List.getLast?_concat, zero] at last
      have same : UInt8.ofNat value = 0 := Option.some.inj last
      have none := toNat_ofNat_last small
      rw [same] at none
      exact Nat.ne_of_gt some none.symm
  | case2 value large ih =>
      intro continuing final written _
      cases continuing with
      | nil =>
          have none := (List.cons.inj written).2
          rw [encodeNat] at none
          split at none <;> cases none
      | cons byte continuing =>
          exact ih (List.cons.inj written).2 (by omega)

namespace Spelling

/-- **A canonical spelling is what its value is written as.** -/
theorem Canonical.encode_value {spelling : Spelling width} (canonical : spelling.Canonical) :
    encode width spelling.value = spelling.bytes := by
  have whole : spelling.value = groupSum spelling.bytes spelling.continuing.length :=
    Nat.mod_eq_of_lt canonical.groupSum_lt
  have trimmed : spelling.continuing = [] ∨ spelling.final ≠ 0 := by
    refine canonical.trimmed.imp_left fun single => ?_
    rw [length_bytes] at single
    exact List.length_eq_zero_iff.mp (Nat.succ.inj single)
  have reduced : width.reduce spelling.value = spelling.value :=
    reduce_natCast (Nat.mod_lt _ width.modulus_pos)
  rw [encode, reduced, whole]
  exact encodeNat_groupSum spelling.ends spelling.continues trimmed

/-- **What is written for an integer is canonical.** -/
theorem canonical_of_encode {spelling : Spelling width} {value : Int}
    (written : encode width value = spelling.bytes) : spelling.Canonical := by
  have below : width.reduce value < width.modulus := width.reduce_lt value
  constructor
  · rcases Nat.eq_zero_or_pos (width.reduce value) with zero | some
    · left
      rw [← written, encode, zero, encodeNat, if_pos (by decide), List.length_singleton]
    · exact .inr (final_ne_zero_of_encodeNat _ written some)
  · by_contra beyond
    obtain ⟨full, large⟩ := not_or.mp beyond
    obtain ⟨continuing, final, groups, _, _, _, sum⟩ :=
      exists_groups_of_encodeNat _ (maxBytes_pos width)
        (Nat.lt_of_lt_of_le below (modulus_le width))
    obtain ⟨rfl, rfl⟩ : continuing = spelling.continuing ∧ final = spelling.final :=
      List.append_singleton_inj.mp (groups.symm.trans written)
    -- the last group alone is as much as the modulus
    have top := Nat.mul_le_mul (Nat.le_of_not_lt large)
      (Nat.pow_le_pow_right (by decide : 0 < 128)
        (by rw [length_bytes] at full; omega : width.maxBytes - 1 ≤ spelling.continuing.length))
    rw [encode] at written
    rw [lastLimit_mul, ← spelling.getD_final] at top
    rw [written, groupSum] at sum
    omega

/-- What is written is no longer than any spelling of the same value. -/
theorem length_encode_value_le (spelling : Spelling width) :
    (encode width spelling.value).length ≤ spelling.bytes.length := by
  have reduced : width.reduce spelling.value = spelling.value :=
    reduce_natCast (Nat.mod_lt _ width.modulus_pos)
  have below : spelling.value < 128 ^ spelling.bytes.length :=
    Nat.lt_of_le_of_lt (Nat.mod_le _ _) spelling.groupSum_lt_pow
  obtain ⟨continuing, final, written, _, short, _⟩ :=
    exists_groups_of_encodeNat _ spelling.length_bytes_pos below
  rw [encode, reduced, written, List.length_append, List.length_singleton]
  exact short

end Spelling

/-! ## Writing what has been read -/

/-- **A spelling is what its value is written as exactly if it is canonical.** -/
theorem encode_value_eq_iff (spelling : Spelling width) :
    encode width spelling.value = spelling.bytes ↔ spelling.Canonical :=
  ⟨Spelling.canonical_of_encode, Spelling.Canonical.encode_value⟩

/-- Bytes that start both with a spelling and with what is written for its value have it written. -/
theorem encode_value_append_eq_iff (spelling : Spelling width) {front back : Bytes} :
    encode width spelling.value ++ front = spelling.bytes ++ back ↔
      encode width spelling.value = spelling.bytes ∧ front = back := by
  constructor
  · intro same
    obtain ⟨written, whole, _⟩ := exists_spelling width spelling.value
    rw [← whole] at same ⊢
    obtain ⟨rfl, left⟩ := Spelling.append_inj same
    exact ⟨rfl, left⟩
  · rintro ⟨alike, rfl⟩
    rw [alike]

/-- What is decoded at an offset is a spelling that stands there. -/
theorem exists_spelling_of_decode {data : Bytes} {offset : Int} {decoded : Decoded}
    (read : decode width data offset = .ok decoded) :
    ∃ (spelling : Spelling width) (rest : Bytes), data.drop offset.toNat = spelling.bytes ++ rest ∧
      decoded = ⟨spelling.value, spelling.bytes.length⟩ := by
  by_cases inside : 0 ≤ offset ∧ offset ≤ data.length
  · rw [decode_inside width inside.1 inside.2] at read
    rcases spelled_or_unspelled width offset.toNat (data.drop offset.toNat) with
      ⟨spelling, rest, same⟩ | ⟨cause, unspelled⟩
    · refine ⟨spelling, rest, same, ?_⟩
      rw [same, unpack_spelling] at read
      simp only [Nat.add_sub_cancel_left, Except.ok.injEq] at read
      exact read.symm
    · obtain ⟨after, refused⟩ := unpack_unspelled unspelled
      rw [refused] at read
      cases read
  · rw [decode_outside width (by omega)] at read
    cases read

/-- Integers that are written alike are congruent. -/
theorem reduce_eq_of_encode_eq {first second : Int}
    (same : encode width first = encode width second) :
    width.reduce first = width.reduce second := by
  have one : unpack width (⟨0, encode width first ++ []⟩ : BufferSource) = _ :=
    unpack_encode width 0 [] first
  have two : unpack width (⟨0, encode width second ++ []⟩ : BufferSource) = _ :=
    unpack_encode width 0 [] second
  rw [same, two] at one
  injection one with value _
  exact value.symm

/-- No written quantity is a proper initial part of another. -/
theorem encode_eq_of_isPrefix {first second : Int}
    (start : encode width first <+: encode width second) :
    encode width first = encode width second := by
  obtain ⟨rest, whole⟩ := start
  obtain ⟨short, shortWritten, _⟩ := exists_spelling width first
  obtain ⟨long, longWritten, _⟩ := exists_spelling width second
  rw [← shortWritten, ← longWritten, ← List.append_nil long.bytes] at whole
  rw [← shortWritten, ← longWritten, (Spelling.append_inj whole).1]

variable (width)

/-- Writing pairs the numbers below the modulus off with the canonical spellings. -/
theorem bijOn_encode :
    Set.BijOn (fun number : Nat => encode width number) {number | number < 2 ^ width.bits}
      {bytes | ∃ spelling : Spelling width, spelling.Canonical ∧ spelling.bytes = bytes} := by
  refine ⟨?_, ?_, ?_⟩
  · intro number _
    obtain ⟨spelling, written, _⟩ := exists_spelling width number
    exact ⟨spelling, Spelling.canonical_of_encode written.symm, written⟩
  · intro first firstBelow second secondBelow same
    have congruent := reduce_eq_of_encode_eq same
    rwa [reduce_natCast firstBelow, reduce_natCast secondBelow] at congruent
  · rintro bytes ⟨spelling, canonical, rfl⟩
    exact ⟨spelling.value, Nat.mod_lt _ width.modulus_pos, canonical.encode_value⟩

/-- **Writing what has been read never takes more bytes, and gives the same bytes exactly if they are
canonical.**  So the numbers below the modulus and the canonical spellings are paired off by writing,
and of two different ones none is an initial part of the other. -/
theorem encode_eq_iff_canonical :
    (∀ (data : Bytes) (offset : Int) (decoded : Decoded), decode width data offset = .ok decoded →
      (encode width decoded.value).length ≤ decoded.consumed ∧
        ∃ spelling : Spelling width,
          spelling.bytes = (data.drop offset.toNat).take decoded.consumed ∧
            spelling.bytes.length = decoded.consumed ∧
            (encode width decoded.value = (data.drop offset.toNat).take decoded.consumed ↔
              spelling.Canonical)) ∧
      Set.BijOn (fun number : Nat => encode width number) {number | number < 2 ^ width.bits}
        {bytes | ∃ spelling : Spelling width, spelling.Canonical ∧ spelling.bytes = bytes} ∧
      ∀ first second : Int, encode width first <+: encode width second →
        encode width first = encode width second := by
  refine ⟨fun data offset decoded read => ?_, bijOn_encode width,
    fun first second start => encode_eq_of_isPrefix start⟩
  obtain ⟨spelling, rest, there, rfl⟩ := exists_spelling_of_decode read
  have consumed : (data.drop offset.toNat).take spelling.bytes.length = spelling.bytes := by
    rw [there, List.take_left]
  refine ⟨spelling.length_encode_value_le, spelling, consumed.symm, rfl, ?_⟩
  rw [consumed]
  exact encode_value_eq_iff spelling

/-- The last group of a quantity of full length has no bit within the width, so zero is read and
written as one byte.  Congruent integers are written alike. -/
theorem encode_eq_iff_canonical_full :
    decode .bits32 [9, 0xFF, 0xFF, 0xFF, 0xFF, 0x10, 7] 1 = .ok ⟨0, 5⟩ ∧
      (encode .bits32 0).length ≤ 5 ∧
      (∃ spelling : Spelling .bits32, spelling.bytes = [0xFF, 0xFF, 0xFF, 0xFF, 0x10] ∧
        ¬spelling.Canonical) ∧
      encode .bits32 300 <+: encode .bits32 (300 - 2 ^ 32) ∧
        encode .bits32 300 = encode .bits32 (300 - 2 ^ 32) := by
  have read : decode .bits32 [9, 0xFF, 0xFF, 0xFF, 0xFF, 0x10, 7] 1 = .ok ⟨0, 5⟩ := by
    decide +kernel
  have start : encode .bits32 300 <+: encode .bits32 (300 - 2 ^ 32) := by decide +kernel
  obtain ⟨decoded, _, apart⟩ := encode_eq_iff_canonical .bits32
  obtain ⟨short, spelling, spelled, _, exactly⟩ := decoded _ _ _ read
  refine ⟨read, short, ⟨spelling, spelled, fun canonical => ?_⟩, start, apart _ _ start⟩
  have same := congrArg List.length (exactly.mpr canonical)
  exact absurd same (by decide +kernel)

end Septet.Quantity
