import Septet.Proofs.Quantity.Spelling

/-!
# Quantities are read back as they were written

The groups of a number are written from the least significant on, each but the last as
its complement, so what is written for a number is continuing bytes and a final one
whose groups sum up to the number (`exists_groups_of_encodeNat`).  A width allows enough
groups for every number below its modulus (`modulus_le`), so what is written for an
integer is a spelling of it (`exists_spelling`).  Hence a written quantity is read back
whatever comes behind it (`unpack_encode`), and wherever in a buffer it stands
(`decode_append`).
-/

set_option autoImplicit false

namespace Septet.Quantity

/-! ## Bytes of groups -/

theorem toNat_ofNat_last {value : Nat} (small : value < 128) : (UInt8.ofNat value).toNat = value := by
  rw [UInt8.toNat_ofNat']
  omega

/-- The byte of another group holds its complement. -/
theorem toNat_ofNat_complement (value : Nat) :
    (UInt8.ofNat (255 - value % 128)).toNat = 255 - value % 128 := by
  rw [UInt8.toNat_ofNat']
  omega

/-! ## Written numbers -/

/-- What is written for a number continues up to a final byte, and its groups sum up to it. -/
theorem exists_groups_of_encodeNat (value : Nat) : ∀ {count : Nat}, 0 < count →
    value < 128 ^ count →
      ∃ continuing final, encodeNat value = continuing ++ [final] ∧
        (∀ byte ∈ continuing, 128 ≤ byte.toNat) ∧ continuing.length < count ∧
          final.toNat < 128 ∧ groupSum (encodeNat value) continuing.length = value := by
  fun_induction encodeNat value with
  | case1 value small =>
      intro count some _
      refine ⟨[], UInt8.ofNat value, rfl, fun _ member => absurd member List.not_mem_nil, some, ?_,
        ?_⟩
      · rwa [toNat_ofNat_last small]
      · rw [List.length_nil, groupSum_cons_zero, toNat_ofNat_last small]
  | case2 value large ih =>
      intro count some below
      obtain ⟨fewer, rfl⟩ := Nat.exists_eq_add_one_of_ne_zero (Nat.ne_of_gt some)
      rw [Nat.pow_succ] at below
      have others : value / 128 < 128 ^ fewer := by
        rwa [Nat.div_lt_iff_lt_mul (by decide)]
      have some' : 0 < fewer := by
        by_contra none
        rw [Nat.eq_zero_of_not_pos none] at below
        omega
      obtain ⟨continuing, final, written, continues, short, ends, sum⟩ := ih some' others
      have continues' : 128 ≤ (UInt8.ofNat (255 - value % 128)).toNat := by
        rw [toNat_ofNat_complement]
        omega
      refine ⟨_ :: continuing, final, ?_, List.forall_mem_cons.mpr ⟨continues', continues⟩,
        Nat.add_lt_add_right short 1, ends, ?_⟩
      · rw [written, List.cons_append]
      · rw [List.length_cons, groupSum_cons_succ, sum, toNat_ofNat_complement]
        omega

variable (width : Width) (position : Nat) (rest : Bytes)

/-- Every number below the modulus of a width has few enough groups. -/
theorem modulus_le : width.modulus ≤ 128 ^ width.maxBytes := by
  cases width <;> decide

/-- **What is written for an integer is a spelling of it.** -/
theorem exists_spelling (value : Int) :
    ∃ spelling : Spelling width, spelling.bytes = encode width value ∧
      spelling.value = width.reduce value := by
  have below : width.reduce value < width.modulus := width.reduce_lt value
  obtain ⟨continuing, final, written, continues, short, ends, sum⟩ :=
    exists_groups_of_encodeNat _ (maxBytes_pos width)
      (Nat.lt_of_lt_of_le below (modulus_le width))
  refine ⟨⟨continuing, final, continues, short, ends⟩, written.symm, ?_⟩
  rw [Spelling.value, Spelling.bytes, ← written, sum, Nat.mod_eq_of_lt below]

/-! ## Reading a written quantity -/

/-- **A written quantity is read back, and what comes behind it stays unread.** -/
theorem unpack_encode (value : Int) :
    unpack width (⟨position, encode width value ++ rest⟩ : BufferSource) =
      .ok (width.reduce value) ⟨position + (encode width value).length, rest⟩ := by
  obtain ⟨spelling, written, same⟩ := exists_spelling width value
  rw [← written, unpack_spelling, same]

/-- A written quantity is decoded wherever in a buffer it stands. -/
theorem decode_append (before : Bytes) (value : Int) (behind : Bytes) :
    decode width (before ++ (encode width value ++ behind)) before.length =
      .ok ⟨width.reduce value, (encode width value).length⟩ := by
  have stop : (before.length : Int) ≤ (before ++ (encode width value ++ behind)).length := by
    simp only [List.length_append]
    omega
  rw [decode_inside width (Int.natCast_nonneg _) stop, Int.toNat_natCast, List.drop_left,
    unpack_encode]
  simp only [Nat.add_sub_cancel_left]

/-- Reducing an integer is taking its remainder. -/
theorem natCast_reduce (value : Int) : (width.reduce value : Int) = value % 2 ^ width.bits := by
  have positive : (0 : Int) < width.modulus := by exact_mod_cast width.modulus_pos
  have modulus : (width.modulus : Int) = 2 ^ width.bits := by
    rw [Width.modulus, Nat.pow_eq, Nat.cast_pow, Nat.cast_ofNat]
  rw [Width.reduce, Int.toNat_of_nonneg (Int.emod_nonneg _ (Int.ne_of_gt positive)), modulus]

theorem map_natCast_reduce (integers : List Int) :
    (integers.map width.reduce).map Int.ofNat = integers.map (· % 2 ^ width.bits) := by
  rw [List.map_map]
  exact List.map_congr_left fun integer _ => natCast_reduce width integer

theorem reduce_natCast {width : Width} {value : Nat} (below : value < width.modulus) :
    width.reduce value = value := by
  rw [Width.reduce, ← Int.natCast_emod, Int.toNat_natCast, Nat.mod_eq_of_lt below]

end Septet.Quantity
