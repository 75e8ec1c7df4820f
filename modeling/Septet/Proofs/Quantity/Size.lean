import Mathlib.Order.Bounds.Basic
import Septet.Proofs.Quantity.Bits
import Septet.Proofs.Quantity.RoundTrip

/-!
# How many bytes a quantity takes

A number is counted in groups of seven bits without being written.  The count is that of
the bytes it is written with (`length_encodeNat`), and it is the least number of groups
that the number fits in (`groupCount_le_iff`): a count is enough exactly if the number is
below two to the power of seven times the count.  So counts grow with numbers
(`groupCount_mono`), and no number below the modulus of a width takes more bytes than the
width allows (`encodedSize_le_maxBytes`).

Of the bytes that are written, all but the last have a set top bit.  The main theorem,
`encode_shape`, says all this of every integer, a negative one or one that is too great
for the width included.
-/

set_option autoImplicit false

namespace Septet.Quantity

/-! ## Counting groups -/

theorem groupCount_of_lt {value : Nat} (small : value < 128) : groupCount value = 1 := by
  rw [groupCount, if_pos small]

theorem groupCount_of_not_lt {value : Nat} (large : ¬value < 128) :
    groupCount value = groupCount (value / 128) + 1 := by
  conv_lhs => rw [groupCount, if_neg large]

/-- A number is written with as many bytes as it has groups. -/
theorem length_encodeNat (value : Nat) : (encodeNat value).length = groupCount value := by
  fun_induction encodeNat value with
  | case1 value small => rw [groupCount_of_lt small, List.length_singleton]
  | case2 value large ih => rw [groupCount_of_not_lt large, List.length_cons, ih]

/-- **Some groups are enough for a number exactly if the number has no bit behind them.** -/
theorem groupCount_le_iff (value : Nat) : ∀ count : Nat,
    groupCount value ≤ count ↔ 1 ≤ count ∧ value < 2 ^ (7 * count) := by
  fun_induction groupCount value with
  | case1 value small =>
      intro count
      refine ⟨fun some => ⟨some, ?_⟩, And.left⟩
      calc value < 2 ^ 7 := small
        _ ≤ 2 ^ (7 * count) := Nat.pow_le_pow_right (by decide) (by omega)
  | case2 value large ih =>
      intro count
      cases count with
      | zero => omega
      | succ count =>
          have split : value < 2 ^ (7 * (count + 1)) ↔ value / 128 < 2 ^ (7 * count) := by
            rw [Nat.div_lt_iff_lt_mul (by decide), Nat.mul_succ, Nat.pow_add]
          rw [Nat.add_le_add_iff_right, ih, split]
          refine and_congr_left fun below => iff_of_true ?_ (Nat.le_add_left 1 count)
          -- with no further group nothing would be left of the number
          rcases Nat.eq_zero_or_pos count with rfl | some
          · omega
          · exact some

/-- A number has the least number of groups that it fits in. -/
theorem isLeast_groupCount (value : Nat) :
    IsLeast {count | 1 ≤ count ∧ value < 2 ^ (7 * count)} (groupCount value) :=
  ⟨(groupCount_le_iff value _).mp le_rfl,
    fun count enough => (groupCount_le_iff value count).mpr enough⟩

/-- A greater number has no fewer groups. -/
theorem groupCount_mono {first second : Nat} (less : first ≤ second) :
    groupCount first ≤ groupCount second := by
  obtain ⟨some, below⟩ := (groupCount_le_iff second _).mp le_rfl
  exact (groupCount_le_iff first _).mpr ⟨some, Nat.lt_of_le_of_lt less below⟩

/-! ## Sizes of integers -/

variable (width : Width)

theorem length_encode (value : Int) : (encode width value).length = encodedSize width value :=
  length_encodeNat (width.reduce value)

/-- No integer takes more bytes than the width allows. -/
theorem encodedSize_le_maxBytes (value : Int) : encodedSize width value ≤ width.maxBytes := by
  refine (groupCount_le_iff _ _).mpr ⟨maxBytes_pos width, ?_⟩
  rw [Nat.pow_mul]
  exact Nat.lt_of_lt_of_le (width.reduce_lt value) (modulus_le width)

/-- All bytes of a written quantity but the last have a set top bit. -/
theorem exists_continuing_of_encode (value : Int) :
    ∃ continuing final, encode width value = continuing ++ [final] ∧
      (∀ byte ∈ continuing, 128 ≤ byte.toNat) ∧ final.toNat < 128 := by
  obtain ⟨spelling, written, _⟩ := exists_spelling width value
  exact ⟨spelling.continuing, spelling.final, written.symm, spelling.continues, spelling.ends⟩

/-- **What a written quantity looks like.**  Its last byte alone has a clear top bit.  Its length is
the size that is counted without writing, which is the least number of groups of seven bits that the
integer, reduced by the width, fits in; it is at most the greatest number of bytes of the width, and
it grows with the reduced integer. -/
theorem encode_shape :
    (∀ value : Int,
      (∃ continuing final, encode width value = continuing ++ [final] ∧
        (∀ byte ∈ continuing, 128 ≤ byte.toNat) ∧ final.toNat < 128) ∧
      (encode width value).length = encodedSize width value ∧
      IsLeast {count : Nat | 1 ≤ count ∧ value % 2 ^ width.bits < 2 ^ (7 * count)}
        (encodedSize width value) ∧
      encodedSize width value ≤ width.maxBytes) ∧
    ∀ first second : Int, first % 2 ^ width.bits ≤ second % 2 ^ width.bits →
      (encode width first).length ≤ (encode width second).length := by
  constructor
  · intro value
    refine ⟨exists_continuing_of_encode width value, length_encode width value, ?_,
      encodedSize_le_maxBytes width value⟩
    have fits : ∀ count : Nat, width.reduce value < 2 ^ (7 * count) ↔
        value % 2 ^ width.bits < 2 ^ (7 * count) := by
      intro count
      rw [← natCast_reduce]
      exact_mod_cast Iff.rfl
    simp only [← fits]
    exact isLeast_groupCount (width.reduce value)
  · intro first second less
    rw [← natCast_reduce, ← natCast_reduce, Int.ofNat_le] at less
    rw [length_encode, length_encode]
    exact groupCount_mono less

/-- A number that is too great for the width is written as what is left of it, and minus one with all
the bits of the width. -/
theorem encode_shape_negative :
    (2 ^ 32 + 127 : Int) % 2 ^ 32 ≤ -1 % 2 ^ 32 ∧
      (encode .bits32 (2 ^ 32 + 127)).length ≤ (encode .bits32 (-1)).length ∧
        encodedSize .bits32 (2 ^ 32 + 127) = 1 ∧ encodedSize .bits32 (-1) = 5 :=
  ⟨by decide, (encode_shape .bits32).2 _ _ (by decide), by decide +kernel, by decide +kernel⟩

end Septet.Quantity
