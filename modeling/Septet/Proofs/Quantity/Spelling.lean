import Mathlib.Algebra.BigOperators.Intervals
import Mathlib.Algebra.BigOperators.Ring.Finset
import Mathlib.Data.List.GetD
import Mathlib.Tactic.Ring
import Septet.Quantity.Basic

/-!
# Spellings of a number

A byte with a set top bit continues a quantity and one with a clear top bit ends it.
A spelling is some continuing bytes, fewer than the greatest number of bytes of the
width, and a final byte behind them.  Its value is the sum of its groups, each at its
place, reduced by the width.  Every written quantity is a spelling, but not the only
one of its number: groups of zero may stand at the end, and the last group of a full
length may have bits beyond the width.

Reading passes over continuing bytes and adds up their complements
(`unpackGroups_append`).  So it takes a spelling as its value (`unpack_spelling`), and
bytes that start with none are refused where they end, or where they continue for too
long (`unpack_unspelled`).  There is no other case (`spelled_or_unspelled`).
-/

set_option autoImplicit false

namespace Septet.Quantity

/-! ## Reading a group -/

section Group

variable (width : Width) (left place total position : Nat) (byte : UInt8) (rest : Bytes)

/-- A byte with a clear top bit ends a quantity. -/
theorem unpackGroups_cons_last (small : byte.toNat < 128) :
    unpackGroups width (left + 1) place total (⟨position, byte :: rest⟩ : BufferSource) =
      .ok ((total + byte.toNat * place) % width.modulus) ⟨position + 1, rest⟩ := by
  simp only [unpackGroups, bind, EStateM.bind, ByteSource.next, small, if_true, pure, EStateM.pure]

/-- A byte with a set top bit adds its complement at its place, and reading goes on. -/
theorem unpackGroups_cons_more (large : ¬byte.toNat < 128) :
    unpackGroups width (left + 1) place total (⟨position, byte :: rest⟩ : BufferSource) =
      unpackGroups width left (place * 128) (total + (255 - byte.toNat) * place)
        ⟨position + 1, rest⟩ := by
  simp only [unpackGroups, bind, EStateM.bind, ByteSource.next, large, if_false]

end Group

/-! ## Sums of groups -/

/-- The sum of the complemented groups at the first places, each with the weight of its place. -/
def complementSum (bytes : Bytes) (count : Nat) : Nat :=
  ∑ index ∈ Finset.range count, (127 - (bytes.getD index 0).toNat % 128) * 128 ^ index

/-- The sum of the groups up to a last place, where the group stands as it is. -/
def groupSum (bytes : Bytes) (last : Nat) : Nat :=
  complementSum bytes last + (bytes.getD last 0).toNat * 128 ^ last

theorem complementSum_cons (byte : UInt8) (bytes : Bytes) (count : Nat) :
    complementSum (byte :: bytes) (count + 1) =
      127 - byte.toNat % 128 + 128 * complementSum bytes count := by
  have shift : ∀ index ∈ Finset.range count,
      (127 - ((byte :: bytes).getD (index + 1) 0).toNat % 128) * 128 ^ (index + 1) =
        128 * ((127 - (bytes.getD index 0).toNat % 128) * 128 ^ index) := by
    intro index _
    rw [List.getD_cons_succ, pow_succ]
    ring
  rw [complementSum, Finset.sum_range_succ', Finset.sum_congr rfl shift, ← Finset.mul_sum,
    ← complementSum, List.getD_cons_zero, pow_zero, Nat.mul_one, Nat.add_comm]

theorem groupSum_cons_zero (byte : UInt8) (bytes : Bytes) :
    groupSum (byte :: bytes) 0 = byte.toNat := by
  rw [groupSum, complementSum, Finset.sum_range_zero, List.getD_cons_zero, Nat.zero_add,
    Nat.pow_zero, Nat.mul_one]

theorem groupSum_cons_succ (byte : UInt8) (bytes : Bytes) (last : Nat) :
    groupSum (byte :: bytes) (last + 1) =
      127 - byte.toNat % 128 + 128 * groupSum bytes last := by
  rw [groupSum, complementSum_cons, List.getD_cons_succ, groupSum, Nat.pow_succ]
  ring

/-- Groups behind the places that are summed do not count. -/
theorem complementSum_append {bytes : Bytes} {count : Nat} (within : count ≤ bytes.length)
    (rest : Bytes) : complementSum (bytes ++ rest) count = complementSum bytes count := by
  refine Finset.sum_congr rfl fun index below => ?_
  rw [List.getD_append _ _ _ _ (Nat.lt_of_lt_of_le (Finset.mem_range.mp below) within)]

theorem groupSum_append {bytes : Bytes} {last : Nat} (within : last < bytes.length)
    (rest : Bytes) : groupSum (bytes ++ rest) last = groupSum bytes last := by
  rw [groupSum, groupSum, complementSum_append within.le, List.getD_append _ _ _ _ within]

/-! ## Spellings -/

theorem maxBytes_pos (width : Width) : 0 < width.maxBytes := by
  cases width <;> decide

/-- Bytes that are read as a number. -/
structure Spelling (width : Width) where
  /-- The bytes before the last one. -/
  continuing : Bytes
  final : UInt8
  continues : ∀ byte ∈ continuing, 128 ≤ byte.toNat
  length_lt : continuing.length < width.maxBytes
  ends : final.toNat < 128

namespace Spelling

variable {width : Width}

def bytes (spelling : Spelling width) : Bytes :=
  spelling.continuing ++ [spelling.final]

def value (spelling : Spelling width) : Nat :=
  groupSum spelling.bytes spelling.continuing.length % width.modulus

theorem length_bytes (spelling : Spelling width) :
    spelling.bytes.length = spelling.continuing.length + 1 := by
  rw [bytes, List.length_append, List.length_singleton]

theorem length_bytes_pos (spelling : Spelling width) : 0 < spelling.bytes.length := by
  rw [length_bytes]
  exact Nat.succ_pos _

theorem append_ne_nil (spelling : Spelling width) (rest : Bytes) : spelling.bytes ++ rest ≠ [] := by
  rw [← List.length_pos_iff, List.length_append]
  exact Nat.add_pos_left spelling.length_bytes_pos _

end Spelling

/-- Why no spelling stands at the start of bytes at a position. -/
inductive Unspelled (width : Width) (position : Nat) : Bytes → StreamError → Prop where
  /-- The bytes end before a quantity does. -/
  | exhausted {bytes : Bytes} (continues : ∀ byte ∈ bytes, 128 ≤ byte.toNat)
      (short : bytes.length < width.maxBytes) :
      Unspelled width position bytes (.bufferExhausted (position + bytes.length))
  /-- As many bytes as the width allows continue a quantity. -/
  | overlong {continuing : Bytes} (continues : ∀ byte ∈ continuing, 128 ≤ byte.toNat)
      (full : continuing.length = width.maxBytes) (rest : Bytes) :
      Unspelled width position (continuing ++ rest) (.overlong width)

/-- Bytes all continue a quantity, or continue one up to a byte that ends it. -/
theorem continuing_or_final (bytes : Bytes) :
    (∀ byte ∈ bytes, 128 ≤ byte.toNat) ∨
      ∃ continuing final rest, bytes = continuing ++ final :: rest ∧
        (∀ byte ∈ continuing, 128 ≤ byte.toNat) ∧ final.toNat < 128 := by
  induction bytes with
  | nil => exact .inl fun _ member => absurd member List.not_mem_nil
  | cons byte bytes ih =>
      by_cases large : 128 ≤ byte.toNat
      · rcases ih with all | ⟨continuing, final, rest, rfl, continues, ends⟩
        · exact .inl (List.forall_mem_cons.mpr ⟨large, all⟩)
        · exact .inr ⟨byte :: continuing, final, rest, rfl,
            List.forall_mem_cons.mpr ⟨large, continues⟩, ends⟩
      · exact .inr ⟨[], byte, bytes, rfl, fun _ member => absurd member List.not_mem_nil,
          Nat.lt_of_not_le large⟩

/-- A quantity that is too long stays so when the bytes are continued. -/
theorem Unspelled.append {width : Width} {position : Nat} {bytes : Bytes} {cause : StreamError}
    (unspelled : Unspelled width position bytes cause)
    (late : ∀ offset, cause ≠ .bufferExhausted offset) (more : Bytes) :
    Unspelled width position (bytes ++ more) cause := by
  cases unspelled with
  | exhausted => exact absurd rfl (late _)
  | overlong continues full rest =>
      rw [List.append_assoc]
      exact .overlong continues full (rest ++ more)

variable (width : Width) (position : Nat)

/-- Continuing bytes that are too many for the width start with no spelling. -/
theorem unspelled_of_le_length {continuing : Bytes}
    (continues : ∀ byte ∈ continuing, 128 ≤ byte.toNat) (long : width.maxBytes ≤ continuing.length)
    (rest : Bytes) : Unspelled width position (continuing ++ rest) (.overlong width) := by
  have cut : Unspelled width position (continuing.take width.maxBytes ++ _) _ :=
    .overlong (fun byte member => continues byte (List.mem_of_mem_take member))
      (List.length_take_of_le long) (continuing.drop width.maxBytes ++ rest)
  rwa [← List.append_assoc, List.take_append_drop] at cut

/-- **What bytes can start with**: a spelling, or what is none. -/
theorem spelled_or_unspelled (bytes : Bytes) :
    (∃ (spelling : Spelling width) (rest : Bytes), bytes = spelling.bytes ++ rest) ∨
      ∃ cause, Unspelled width position bytes cause := by
  rcases continuing_or_final bytes with all | ⟨continuing, final, rest, rfl, continues, ends⟩
  · by_cases short : bytes.length < width.maxBytes
    · exact .inr ⟨_, .exhausted all short⟩
    · have long := unspelled_of_le_length width position all (Nat.le_of_not_lt short) []
      rw [List.append_nil] at long
      exact .inr ⟨_, long⟩
  · by_cases short : continuing.length < width.maxBytes
    · refine .inl ⟨⟨continuing, final, continues, short, ends⟩, rest, ?_⟩
      rw [Spelling.bytes, List.append_assoc, List.singleton_append]
    · exact .inr ⟨_, unspelled_of_le_length width position continues (Nat.le_of_not_lt short) _⟩

/-! ## Reading -/

/-- Reading passes over continuing bytes and adds up their complements. -/
theorem unpackGroups_append (left : Nat) (rest : Bytes) {continuing : Bytes} :
    (∀ byte ∈ continuing, 128 ≤ byte.toNat) → ∀ place total position : Nat,
      unpackGroups width (continuing.length + left) place total
          (⟨position, continuing ++ rest⟩ : BufferSource) =
        unpackGroups width left (place * 128 ^ continuing.length)
          (total + complementSum continuing continuing.length * place)
          ⟨position + continuing.length, rest⟩ := by
  induction continuing with
  | nil =>
      intro _ place total position
      simp only [complementSum, List.length_nil, Finset.range_zero, Finset.sum_empty, Nat.zero_add,
        Nat.zero_mul, Nat.pow_zero, Nat.mul_one, Nat.add_zero, List.nil_append]
  | cons byte continuing ih =>
      intro continues place total position
      have large : 128 ≤ byte.toNat := continues byte List.mem_cons_self
      have others := fun other member => continues other (List.mem_cons_of_mem byte member)
      have complement : 255 - byte.toNat = 127 - byte.toNat % 128 := by
        have bound := byte.toNat_lt
        omega
      rw [List.length_cons, Nat.add_right_comm, List.cons_append,
        unpackGroups_cons_more _ _ _ _ _ _ _ (Nat.not_lt.mpr large), ih others,
        complementSum_cons, complement]
      congr 1
      · ring
      · ring
      · rw [Nat.add_right_comm, Nat.add_assoc]

variable {width position} {bytes : Bytes}

/-- **A spelling is read as its value, and what comes behind it stays unread.** -/
theorem unpack_spelling (spelling : Spelling width) (rest : Bytes) :
    unpack width (⟨position, spelling.bytes ++ rest⟩ : BufferSource) =
      .ok spelling.value ⟨position + spelling.bytes.length, rest⟩ := by
  obtain ⟨left, allowed⟩ := Nat.exists_eq_add_of_lt spelling.length_lt
  have sum : complementSum spelling.continuing spelling.continuing.length * 1 +
      spelling.final.toNat * (1 * 128 ^ spelling.continuing.length) =
        groupSum spelling.bytes spelling.continuing.length := by
    rw [groupSum, Spelling.bytes, complementSum_append le_rfl,
      List.getD_append_right _ _ _ _ le_rfl, Nat.sub_self, List.getD_cons_zero]
    ring
  rw [unpack, allowed, Nat.add_assoc, Spelling.bytes, List.append_assoc,
    unpackGroups_append width _ _ spelling.continues, List.singleton_append,
    unpackGroups_cons_last _ _ _ _ _ _ _ spelling.ends, Nat.zero_add, sum, Spelling.value,
    List.length_append, List.length_singleton, Nat.add_assoc, Spelling.bytes]

/-- Bytes that end before a quantity does are used up. -/
theorem unpack_exhausted (continues : ∀ byte ∈ bytes, 128 ≤ byte.toNat)
    (short : bytes.length < width.maxBytes) :
    unpack width (⟨position, bytes⟩ : BufferSource) =
      .error (.bufferExhausted (position + bytes.length)) ⟨position + bytes.length, []⟩ := by
  obtain ⟨left, allowed⟩ := Nat.exists_eq_add_of_lt short
  have passed := unpackGroups_append width (left + 1) [] continues 1 0 position
  rw [List.append_nil, ← Nat.add_assoc, ← allowed] at passed
  exact passed

/-- Of a quantity that is too long, as many bytes are used up as the width allows. -/
theorem unpack_overlong {continuing : Bytes} (continues : ∀ byte ∈ continuing, 128 ≤ byte.toNat)
    (full : continuing.length = width.maxBytes) (rest : Bytes) :
    unpack width (⟨position, continuing ++ rest⟩ : BufferSource) =
      .error (.overlong width) ⟨position + width.maxBytes, rest⟩ := by
  have passed := unpackGroups_append width 0 rest continues 1 0 position
  rw [Nat.add_zero, full] at passed
  exact passed

/-- Bytes that start with no spelling are refused for that. -/
theorem unpack_unspelled {cause : StreamError} (unspelled : Unspelled width position bytes cause) :
    ∃ after, unpack width (⟨position, bytes⟩ : BufferSource) = .error cause after := by
  cases unspelled with
  | exhausted continues short => exact ⟨_, unpack_exhausted continues short⟩
  | overlong continues full rest => exact ⟨_, unpack_overlong continues full rest⟩

/-! ## Decoding at an offset -/

variable (width) {data : Bytes} {offset : Int}

theorem decode_outside (outside : offset < 0 ∨ data.length < offset) :
    decode width data offset = .error (.offsetOutside offset data.length) := by
  have no : ¬(0 ≤ offset ∧ offset ≤ data.length) := by omega
  simp only [decode, BufferSource.startingAt, no, if_false, bind, Except.bind]

theorem startingAt_inside (start : 0 ≤ offset) (stop : offset ≤ data.length) :
    BufferSource.startingAt data offset = .ok ⟨offset.toNat, data.drop offset.toNat⟩ :=
  if_pos ⟨start, stop⟩

/-- Decoding at an offset is reading what stands there. -/
theorem decode_inside (start : 0 ≤ offset) (stop : offset ≤ data.length) :
    decode width data offset =
      match unpack width (⟨offset.toNat, data.drop offset.toNat⟩ : BufferSource) with
      | .ok value after => .ok ⟨value, after.position - offset.toNat⟩
      | .error cause _ => .error cause := by
  have source := startingAt_inside start stop
  cases read : unpack width (⟨offset.toNat, data.drop offset.toNat⟩ : BufferSource) with
  | ok value after => simp only [decode, source, bind, Except.bind, read]
  | error cause after => simp only [decode, source, bind, Except.bind, read]

end Septet.Quantity
