import Mathlib.Data.Nat.Bitwise
import Mathlib.Tactic.Ring
import Septet.Quantity.Basic

/-!
# The bits of a quantity

Writing and reading are stated in arithmetic, and the same can be said in bits.  An
integer is masked to the bits of the width; then seven low bits after the other are
shifted out of it until nothing is left, and each group but the last is negated.
Reading shifts each group to its place, joins it to those before by `or`, and masks the
whole to the bits of the width.  The groups of a number are counted by shifting them out
of it while more than one is left.

A group has seven bits and its place is behind those of all groups before it, so joining
is adding (`or_shiftLeft_eq_add`).  Hence both forms are the same, for every sink
(`packBits_eq_pack`) and for every source (`unpackBits_eq_unpack`), and so is the count
(`encodedSizeBits_eq_encodedSize`).
-/

set_option autoImplicit false

namespace Septet.Quantity

variable {σ : Type}

/-! ## Writing and reading bits -/

/-- Writes the groups of a number, which are shifted out of it. -/
def packGroupBits [ByteSink σ] (value : Nat) : StreamM σ Unit :=
  if value >>> 7 = 0 then ByteSink.put (UInt8.ofNat (value &&& 0x7F))
  else do
    ByteSink.put (~~~UInt8.ofNat (value &&& 0x7F))
    packGroupBits (value >>> 7)
termination_by value
decreasing_by
  next more =>
    rw [Nat.shiftRight_eq_div_pow] at more ⊢
    omega

/-- Writes an integer, masked to the bits of a width. -/
def packBits [ByteSink σ] (width : Width) (value : Int) : StreamM σ Unit :=
  packGroupBits (BitVec.ofInt width.bits value).toNat

/-- Reads the groups that are left of a quantity.  `index` counts the groups before them, which make
up `result`. -/
def unpackGroupBits [ByteSource σ] (width : Width) : Nat → Nat → Nat → StreamM σ Nat
  | 0, _, _ => throw (.overlong width)
  | left + 1, index, result => do
      let byte ← ByteSource.next
      if byte &&& 0x80 = 0 then
        pure ((result ||| byte.toNat <<< (7 * index)) &&& (2 ^ width.bits - 1))
      else
        unpackGroupBits width left (index + 1)
          (result ||| (~~~byte &&& 0x7F).toNat <<< (7 * index))

def unpackBits [ByteSource σ] (width : Width) : StreamM σ Nat :=
  unpackGroupBits width width.maxBytes 0 0

/-- Counts the groups of a number, which are shifted out of it while more than one is left, from a
size on. -/
def countGroupBits (value size : Nat) : Nat :=
  if 0x7F < value then countGroupBits (value >>> 7) (size + 1) else size
termination_by value
decreasing_by
  rw [Nat.shiftRight_eq_div_pow]
  omega

/-- How many bytes an integer takes, masked to the bits of a width. -/
def encodedSizeBits (width : Width) (value : Int) : Nat :=
  countGroupBits (BitVec.ofInt width.bits value).toNat 1

/-! ## Groups -/

/-- The seven low bits are the remainder of a division by 128. -/
theorem and_low (value : Nat) : value &&& 0x7F = value % 128 :=
  Nat.and_two_pow_sub_one_eq_mod value 7

theorem shiftRight_group (value : Nat) : value >>> 7 = value / 128 :=
  Nat.shiftRight_eq_div_pow value 7

theorem not_group (value : Nat) :
    ~~~UInt8.ofNat (value % 128) = UInt8.ofNat (255 - value % 128) := by
  rw [← UInt8.toNat_inj, UInt8.toNat_not, UInt8.toNat_ofNat', UInt8.toNat_ofNat']
  change 256 - 1 - _ = _
  omega

theorem and_topBit_eq_zero_iff (byte : UInt8) : byte &&& 0x80 = 0 ↔ byte.toNat < 128 := by
  have bound := byte.toNat_lt
  have top : byte.toNat &&& 0x80 = (byte.toNat.testBit 7).toNat * 2 ^ 7 :=
    Nat.and_two_pow byte.toNat 7
  rw [← UInt8.toNat_inj, UInt8.toNat_and]
  change byte.toNat &&& 0x80 = 0 ↔ _
  rw [top, Nat.testBit_eq_decide_div_mod_eq]
  by_cases set : byte.toNat / 2 ^ 7 % 2 = 1
  · simp only [set, decide_true, Bool.toNat_true]
    omega
  · simp only [set, decide_false, Bool.toNat_false]
    omega

theorem toNat_not_and_low {byte : UInt8} (large : ¬byte.toNat < 128) :
    (~~~byte &&& 0x7F).toNat = 255 - byte.toNat := by
  have bound := byte.toNat_lt
  rw [UInt8.toNat_and, UInt8.toNat_not]
  change (256 - 1 - byte.toNat) &&& 0x7F = _
  rw [and_low]
  omega

/-- A group that is joined at its place to the groups before it adds its weight. -/
theorem or_shiftLeft_eq_add {result index : Nat} (below : result < 128 ^ index) (group : Nat) :
    result ||| group <<< (7 * index) = result + group * 128 ^ index := by
  have place : 128 ^ index = 2 ^ (7 * index) := by rw [Nat.pow_mul]
  rw [place] at below ⊢
  rw [Nat.shiftLeft_eq, Nat.or_comm, Nat.mul_comm, ← Nat.two_pow_add_eq_or_of_lt below,
    Nat.add_comm]

/-! ## Both forms are the same -/

theorem packGroupBits_eq_putAll [ByteSink σ] (value : Nat) :
    (packGroupBits value : StreamM σ Unit) = ByteSink.putAll (encodeNat value) := by
  induction value using Nat.strongRecOn with
  | ind value ih =>
      rw [packGroupBits, encodeNat, shiftRight_group, and_low]
      by_cases small : value < 128
      · have none : value / 128 = 0 := Nat.div_eq_of_lt small
        have all : value % 128 = value := Nat.mod_eq_of_lt small
        rw [if_pos none, if_pos small, all, ByteSink.putAll, ByteSink.putAll, bind_pure_unit]
      · have more : value / 128 ≠ 0 := by omega
        rw [if_neg more, if_neg small, not_group, ih (value / 128) (by omega), ByteSink.putAll]

/-- **Writing bits is writing a quantity**, to whatever sink. -/
theorem packBits_eq_pack [ByteSink σ] (width : Width) (value : Int) :
    (packBits width value : StreamM σ Unit) = pack width value := by
  rw [packBits, packGroupBits_eq_putAll, pack, encode, BitVec.toNat_ofInt, Width.reduce,
    Width.modulus, Nat.pow_eq]

/-- The groups before the next one stay below its place. -/
theorem unpackGroupBits_eq_unpackGroups [ByteSource σ] (width : Width) (left : Nat) :
    ∀ {index result : Nat}, result < 128 ^ index →
      (unpackGroupBits width left index result : StreamM σ Nat) =
        unpackGroups width left (128 ^ index) result := by
  induction left with
  | zero =>
      intro index result _
      rfl
  | succ left ih =>
      intro index result below
      rw [unpackGroupBits, unpackGroups]
      congr 1
      funext byte
      by_cases final : byte.toNat < 128
      · rw [if_pos ((and_topBit_eq_zero_iff byte).mpr final), if_pos final,
          or_shiftLeft_eq_add below, Nat.and_two_pow_sub_one_eq_mod, Width.modulus, Nat.pow_eq]
      · have next : result + (255 - byte.toNat) * 128 ^ index < 128 ^ (index + 1) := by
          have group : 255 - byte.toNat ≤ 127 := by omega
          calc result + (255 - byte.toNat) * 128 ^ index
              ≤ result + 127 * 128 ^ index := Nat.add_le_add_left (Nat.mul_le_mul_right _ group) _
            _ < 128 ^ index + 127 * 128 ^ index := Nat.add_lt_add_right below _
            _ = 128 ^ (index + 1) := by ring
        rw [if_neg (fun zero => final ((and_topBit_eq_zero_iff byte).mp zero)), if_neg final,
          toNat_not_and_low final, or_shiftLeft_eq_add below, ih next, Nat.pow_succ]

/-- **Reading bits is reading a quantity**, from whatever source. -/
theorem unpackBits_eq_unpack [ByteSource σ] (width : Width) :
    (unpackBits width : StreamM σ Nat) = unpack width :=
  unpackGroupBits_eq_unpackGroups width width.maxBytes Nat.zero_lt_one

theorem countGroupBits_eq_groupCount (value : Nat) : ∀ size : Nat,
    countGroupBits value (size + 1) = groupCount value + size := by
  fun_induction groupCount value with
  | case1 value small =>
      intro size
      rw [countGroupBits, if_neg (by omega), Nat.add_comm]
  | case2 value large ih =>
      intro size
      rw [countGroupBits, if_pos (by omega), shiftRight_group, ih, Nat.add_comm size 1, Nat.add_assoc]

/-- **Counting by shifts gives the size of a quantity.** -/
theorem encodedSizeBits_eq_encodedSize (width : Width) (value : Int) :
    encodedSizeBits width value = encodedSize width value := by
  rw [encodedSizeBits, countGroupBits_eq_groupCount, encodedSize, BitVec.toNat_ofInt, Width.reduce,
    Width.modulus, Nat.pow_eq, Nat.add_zero]

end Septet.Quantity
