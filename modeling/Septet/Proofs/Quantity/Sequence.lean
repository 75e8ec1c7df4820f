import Septet.Proofs.Quantity.RoundTrip
import Septet.Quantity.Sequence

/-!
# Bytes as a sequence of quantities

Bytes can be cut in one way into spellings and a rest that starts with none
(`Spelling.append_inj`, `exists_segmentation`, `Segmentation.bytes_injective`).  Reading
all of them gives the values of the spellings in order, and then stops at the rest:
there is none, or it ends before a quantity does, or a quantity continues for too long
(`readAll_segmentation`).

So quantities written one after the other are read back in order, and bytes that can be
read to their end may stand before any other bytes without changing what is read from
those (`decodeAll_eq_segmentation`).
-/

set_option autoImplicit false

namespace Septet

/-- The cause at an offset that is counted from further ahead. -/
def StreamError.shift (count : Nat) : StreamError → StreamError
  | .bufferExhausted offset => .bufferExhausted (count + offset)
  | cause => cause

namespace Quantity

variable {width : Width}

/-! ## Segmentations -/

/-- No two spellings start the same bytes. -/
theorem Spelling.append_inj {first second : Spelling width} {behind rest : Bytes}
    (same : first.bytes ++ behind = second.bytes ++ rest) : first = second ∧ behind = rest := by
  -- both are what a reader passes over, and it leaves the same bytes
  have one : unpack width (⟨0, first.bytes ++ behind⟩ : BufferSource) = _ :=
    unpack_spelling first behind
  have two : unpack width (⟨0, second.bytes ++ rest⟩ : BufferSource) = _ :=
    unpack_spelling second rest
  rw [same, two] at one
  injection one with _ left
  have unread : behind = rest := (congrArg BufferSource.unread left).symm
  subst unread
  have spelled : first.continuing ++ [first.final] = second.continuing ++ [second.final] :=
    List.append_cancel_right same
  obtain ⟨continuing, final⟩ := List.append_singleton_inj.mp spelled
  cases first
  cases second
  cases continuing
  cases final
  exact ⟨rfl, rfl⟩

/-- Bytes cut into spellings and a rest that starts with none. -/
structure Segmentation (width : Width) where
  spellings : List (Spelling width)
  rest : Bytes
  unspelled : ∀ (spelling : Spelling width) (behind : Bytes), rest ≠ spelling.bytes ++ behind

namespace Segmentation

/-- The bytes that are cut. -/
def bytes (segmentation : Segmentation width) : Bytes :=
  segmentation.spellings.flatMap Spelling.bytes ++ segmentation.rest

/-- Why the rest of bytes at a position cannot be read, if there is a rest. -/
def failure (segmentation : Segmentation width) (position : Nat) : Option StreamError :=
  if segmentation.rest = [] then none
  else if segmentation.rest.length < width.maxBytes then
    some (.bufferExhausted (position + segmentation.bytes.length))
  else some (.overlong width)

/-- The segmentation of bytes that start with one more spelling. -/
def cons (spelling : Spelling width) (segmentation : Segmentation width) : Segmentation width :=
  { segmentation with spellings := spelling :: segmentation.spellings }

theorem bytes_cons (spelling : Spelling width) (segmentation : Segmentation width) :
    (segmentation.cons spelling).bytes = spelling.bytes ++ segmentation.bytes := by
  simp only [bytes, cons, List.flatMap_cons, List.append_assoc]

theorem failure_cons (spelling : Spelling width) (segmentation : Segmentation width)
    (position : Nat) :
    (segmentation.cons spelling).failure position =
      segmentation.failure (position + spelling.bytes.length) := by
  simp only [failure, bytes_cons, List.length_append, Nat.add_assoc]
  rfl

/-- **Bytes are cut in one way.** -/
theorem bytes_injective : Function.Injective (bytes : Segmentation width → Bytes) := by
  rintro ⟨spellings, rest, unspelled⟩ ⟨others, left, unspelled'⟩ same
  simp only [bytes] at same
  -- a rest starts with no spelling, so both go on with one or neither does
  induction spellings generalizing others with
  | nil =>
      cases others with
      | nil => simpa using same
      | cons other others =>
          rw [List.flatMap_cons, List.append_assoc] at same
          exact absurd same (unspelled other _)
  | cons spelling spellings ih =>
      cases others with
      | nil =>
          rw [List.flatMap_cons, List.append_assoc] at same
          exact absurd same.symm (unspelled' spelling _)
      | cons other others =>
          simp only [List.flatMap_cons, List.append_assoc] at same
          obtain ⟨rfl, behind⟩ := Spelling.append_inj same
          have others := ih others behind
          simp only [mk.injEq] at others ⊢
          exact ⟨congrArg _ others.1, others.2⟩

end Segmentation

/-- Bytes that start with no spelling are a rest. -/
theorem Unspelled.ne_append {position : Nat} {bytes : Bytes} {cause : StreamError}
    (unspelled : Unspelled width position bytes cause) (spelling : Spelling width)
    (behind : Bytes) : bytes ≠ spelling.bytes ++ behind := by
  rintro rfl
  obtain ⟨after, refused⟩ := unpack_unspelled unspelled
  rw [unpack_spelling] at refused
  cases refused

/-- **All bytes can be cut.** -/
theorem exists_segmentation (width : Width) (bytes : Bytes) :
    ∃ segmentation : Segmentation width, segmentation.bytes = bytes := by
  induction all : bytes.length using Nat.strongRecOn generalizing bytes with
  | ind length ih =>
      rcases spelled_or_unspelled width 0 bytes with ⟨spelling, behind, rfl⟩ | ⟨cause, unspelled⟩
      · have shorter : behind.length < length := by
          have some := spelling.length_bytes_pos
          rw [List.length_append] at all
          omega
        obtain ⟨segmentation, same⟩ := ih behind.length shorter behind rfl
        exact ⟨segmentation.cons spelling, by rw [Segmentation.bytes_cons, same]⟩
      · exact ⟨⟨[], bytes, unspelled.ne_append⟩, rfl⟩

/-! ## Reading all -/

theorem readAll_nil (position : Nat) :
    readAll width ⟨position, []⟩ = { values := [], failure := none } := by
  rw [readAll]
  rfl

theorem readAll_spelling (position : Nat) (spelling : Spelling width) (rest : Bytes) :
    readAll width ⟨position, spelling.bytes ++ rest⟩ =
      { values := spelling.value ::
          (readAll width ⟨position + spelling.bytes.length, rest⟩).values
        failure := (readAll width ⟨position + spelling.bytes.length, rest⟩).failure } := by
  rw [readAll, if_neg (by simpa only [List.isEmpty_iff] using spelling.append_ne_nil rest)]
  split
  · next cause _ refused =>
      rw [unpack_spelling] at refused
      cases refused
  · next value after read =>
      rw [unpack_spelling] at read
      cases read
      rfl

theorem readAll_unspelled {position : Nat} {bytes : Bytes} {cause : StreamError}
    (some : bytes ≠ []) (unspelled : Unspelled width position bytes cause) :
    readAll width ⟨position, bytes⟩ = { values := [], failure := Option.some cause } := by
  obtain ⟨after, refused⟩ := unpack_unspelled unspelled
  rw [readAll, if_neg (by simpa only [List.isEmpty_iff] using some)]
  split
  · next other _ actual =>
      rw [refused] at actual
      cases actual
      rfl
  · next value after read =>
      rw [refused] at read
      cases read

/-- Reading stops at bytes that start with no spelling. -/
theorem readAll_rest (position : Nat) {segmentation : Segmentation width}
    (none : segmentation.spellings = []) :
    readAll width ⟨position, segmentation.bytes⟩ =
      { values := [], failure := segmentation.failure position } := by
  obtain ⟨spellings, rest, unspelled⟩ := segmentation
  cases none
  simp only [Segmentation.failure, Segmentation.bytes, List.flatMap_nil, List.nil_append]
  rcases spelled_or_unspelled width position rest with ⟨spelling, behind, same⟩ | ⟨cause, stuck⟩
  · exact absurd same (unspelled spelling behind)
  · cases stuck with
    | exhausted continues short =>
        by_cases empty : rest = []
        · subst empty
          rw [if_pos rfl, readAll_nil]
        · rw [if_neg empty, if_pos short, readAll_unspelled empty (.exhausted continues short)]
    | @overlong continuing continues full behind =>
        have long : ¬(continuing ++ behind).length < width.maxBytes := by
          rw [List.length_append]
          omega
        have some : continuing ++ behind ≠ [] := by
          intro nothing
          rw [nothing] at long
          exact long (maxBytes_pos width)
        rw [if_neg some, if_neg long, readAll_unspelled some (.overlong continues full behind)]

/-- **Reading all gives the values of the spellings, and stops at the rest.** -/
theorem readAll_segmentation (position : Nat) (segmentation : Segmentation width) :
    readAll width ⟨position, segmentation.bytes⟩ =
      { values := segmentation.spellings.map Spelling.value
        failure := segmentation.failure position } := by
  obtain ⟨spellings, rest, unspelled⟩ := segmentation
  induction spellings generalizing position with
  | nil => exact readAll_rest position rfl
  | cons spelling spellings ih =>
      let others : Segmentation width := ⟨spellings, rest, unspelled⟩
      change readAll width ⟨position, (others.cons spelling).bytes⟩ =
        ⟨spelling.value :: others.spellings.map Spelling.value,
          (others.cons spelling).failure position⟩
      rw [Segmentation.bytes_cons, readAll_spelling, ih, Segmentation.failure_cons]

/-! ## Whole buffers -/

namespace Segmentation

/-- Spellings with nothing behind them. -/
def ofSpellings (spellings : List (Spelling width)) : Segmentation width where
  spellings := spellings
  rest := []
  unspelled := fun spelling behind nothing => spelling.append_ne_nil behind nothing.symm

/-- Spellings in front of other bytes that are cut. -/
def append (spellings : List (Spelling width)) (segmentation : Segmentation width) :
    Segmentation width :=
  { segmentation with spellings := spellings ++ segmentation.spellings }

theorem bytes_ofSpellings (spellings : List (Spelling width)) :
    (ofSpellings spellings).bytes = spellings.flatMap Spelling.bytes :=
  List.append_nil _

theorem bytes_append (spellings : List (Spelling width)) (segmentation : Segmentation width) :
    (segmentation.append spellings).bytes =
      spellings.flatMap Spelling.bytes ++ segmentation.bytes := by
  simp only [bytes, append, List.flatMap_append, List.append_assoc]

theorem failure_eq_none_iff (segmentation : Segmentation width) (position : Nat) :
    segmentation.failure position = none ↔ segmentation.rest = [] := by
  by_cases empty : segmentation.rest = []
  · simp only [failure, empty, if_true]
  · by_cases short : segmentation.rest.length < width.maxBytes
    · simp only [failure, empty, short, if_true, if_false, reduceCtorEq]
    · simp only [failure, empty, short, if_false, reduceCtorEq]

theorem failure_eq_exhausted_iff (segmentation : Segmentation width) (position : Nat) :
    segmentation.failure position =
        some (.bufferExhausted (position + segmentation.bytes.length)) ↔
      segmentation.rest ≠ [] ∧ segmentation.rest.length < width.maxBytes := by
  by_cases empty : segmentation.rest = []
  · simp [failure, empty]
  · by_cases short : segmentation.rest.length < width.maxBytes
    · simp [failure, empty, short]
    · simp [failure, empty, short]

theorem failure_eq_overlong_iff (segmentation : Segmentation width) (position : Nat) :
    segmentation.failure position = some (.overlong width) ↔
      width.maxBytes ≤ segmentation.rest.length := by
  by_cases empty : segmentation.rest = []
  · simp [failure, empty, (maxBytes_pos width).ne']
  · by_cases short : segmentation.rest.length < width.maxBytes
    · simp [failure, empty, short]
    · simp [failure, empty, short, Nat.le_of_not_lt short]

/-- There are no more spellings than bytes. -/
theorem length_spellings_le (segmentation : Segmentation width) :
    segmentation.spellings.length ≤ segmentation.bytes.length := by
  obtain ⟨spellings, rest, unspelled⟩ := segmentation
  simp only [bytes, List.length_append]
  induction spellings with
  | nil => exact Nat.zero_le _
  | cons spelling spellings ih =>
      have some := spelling.length_bytes_pos
      rw [List.flatMap_cons, List.length_append, List.length_cons]
      omega

/-- A rest fails in the same way behind other bytes. -/
theorem failure_append (spellings : List (Spelling width)) (segmentation : Segmentation width) :
    (segmentation.append spellings).failure 0 =
      (segmentation.failure 0).map (.shift (spellings.flatMap Spelling.bytes).length) := by
  by_cases empty : segmentation.rest = []
  · simp only [failure, append, empty, if_true, Option.map_none]
  · by_cases short : segmentation.rest.length < width.maxBytes
    · simp only [failure, bytes_append, List.length_append, Nat.zero_add]
      simp only [append, empty, short, if_true, if_false, Option.map_some, StreamError.shift]
    · simp only [failure, append, empty, short, if_false, Option.map_some, StreamError.shift]

end Segmentation

theorem decodeAll_segmentation (segmentation : Segmentation width) :
    decodeAll width segmentation.bytes =
      { values := segmentation.spellings.map Spelling.value
        failure := segmentation.failure 0 } :=
  readAll_segmentation 0 segmentation

/-- What is written for integers is spellings of them. -/
theorem exists_spellings (width : Width) (integers : List Int) :
    ∃ spellings : List (Spelling width),
      spellings.flatMap Spelling.bytes = integers.flatMap (encode width) ∧
        spellings.map Spelling.value = integers.map width.reduce := by
  induction integers with
  | nil => exact ⟨[], rfl, rfl⟩
  | cons integer integers ih =>
      obtain ⟨spelling, written, same⟩ := exists_spelling width integer
      obtain ⟨spellings, others, values⟩ := ih
      refine ⟨spelling :: spellings, ?_, ?_⟩
      · rw [List.flatMap_cons, List.flatMap_cons, written, others]
      · rw [List.map_cons, List.map_cons, same, values]

/-- **Integers written one after the other are read back in order.** -/
theorem decodeAll_encode (width : Width) (integers : List Int) :
    decodeAll width (integers.flatMap (encode width)) =
      { values := integers.map width.reduce, failure := none } := by
  obtain ⟨spellings, written, values⟩ := exists_spellings width integers
  rw [← written, ← values, ← Segmentation.bytes_ofSpellings, decodeAll_segmentation,
    (Segmentation.failure_eq_none_iff _ 0).mpr rfl]
  rfl

/-- **Bytes that are read to their end do not change what is read behind them.** -/
theorem decodeAll_append {front : Bytes} (complete : (decodeAll width front).failure = none)
    (behind : Bytes) :
    decodeAll width (front ++ behind) =
      { values := (decodeAll width front).values ++ (decodeAll width behind).values
        failure := (decodeAll width behind).failure.map (.shift front.length) } := by
  obtain ⟨first, rfl⟩ := exists_segmentation width front
  obtain ⟨second, rfl⟩ := exists_segmentation width behind
  rw [decodeAll_segmentation, Segmentation.failure_eq_none_iff] at complete
  have spelled : first.bytes = first.spellings.flatMap Spelling.bytes := by
    rw [Segmentation.bytes, complete, List.append_nil]
  rw [decodeAll_segmentation, decodeAll_segmentation, spelled, ← Segmentation.bytes_append,
    decodeAll_segmentation, Segmentation.failure_append, Segmentation.append, List.map_append]

theorem decode_spelling (spelling : Spelling width) :
    decode width spelling.bytes 0 = .ok ⟨spelling.value, spelling.bytes.length⟩ := by
  have read : unpack width (⟨0, spelling.bytes ++ []⟩ : BufferSource) = _ :=
    unpack_spelling spelling []
  rw [List.append_nil] at read
  rw [decode_inside width le_rfl (Int.natCast_nonneg _)]
  simp only [Int.toNat_zero, List.drop_zero, read, Nat.zero_add, Nat.sub_zero]

/-- **What reading all of any bytes gives.**  They are cut in exactly one way into spellings and a
rest that starts with none.  The values are those of the spellings, in order, and how reading ends
is decided by the length of the rest.  Hence integers written one after the other are read back, and
what stands behind bytes that are read to their end is read as if it stood alone. -/
theorem decodeAll_eq_segmentation (width : Width) :
    (∀ data : Bytes, ∃ segmentation : Segmentation width,
      segmentation.bytes = data ∧
        (∀ other : Segmentation width, other.bytes = data → other = segmentation) ∧
        List.Forall₂
          (fun spelling value =>
            decode width spelling.bytes 0 = .ok ⟨value, spelling.bytes.length⟩)
          segmentation.spellings (decodeAll width data).values ∧
        ((decodeAll width data).failure = none ↔ segmentation.rest = []) ∧
        ((decodeAll width data).failure = some (.bufferExhausted data.length) ↔
          segmentation.rest ≠ [] ∧ segmentation.rest.length < width.maxBytes) ∧
        ((decodeAll width data).failure = some (.overlong width) ↔
          width.maxBytes ≤ segmentation.rest.length) ∧
        (decodeAll width data).values.length ≤ data.length) ∧
      (∀ integers : List Int,
        (decodeAll width (integers.flatMap (encode width))).values.map Int.ofNat =
            integers.map (· % 2 ^ width.bits) ∧
          (decodeAll width (integers.flatMap (encode width))).failure = none) ∧
      ∀ front behind : Bytes, (decodeAll width front).failure = none →
        decodeAll width (front ++ behind) =
          { values := (decodeAll width front).values ++ (decodeAll width behind).values
            failure := (decodeAll width behind).failure.map (.shift front.length) } := by
  refine ⟨fun data => ?_, fun integers => ?_, fun front behind complete =>
    decodeAll_append complete behind⟩
  · obtain ⟨segmentation, rfl⟩ := exists_segmentation width data
    have exhausted := segmentation.failure_eq_exhausted_iff 0
    rw [Nat.zero_add] at exhausted
    refine ⟨segmentation, rfl, fun other same => Segmentation.bytes_injective same, ?_⟩
    rw [decodeAll_segmentation]
    refine ⟨?_, segmentation.failure_eq_none_iff 0, exhausted,
      segmentation.failure_eq_overlong_iff 0, ?_⟩
    · rw [List.forall₂_map_right_iff, List.forall₂_same]
      exact fun spelling _ => decode_spelling spelling
    · rw [List.length_map]
      exact segmentation.length_spellings_le
  · rw [decodeAll_encode]
    exact ⟨map_natCast_reduce width integers, rfl⟩

/-- The bytes in front have a padded spelling of zero; those behind end inside of a quantity. -/
theorem decodeAll_eq_segmentation_padded :
    (decodeAll .bits32 [0xFF, 0, 0xD3, 2]).failure = none ∧
      decodeAll .bits32 ([0xFF, 0, 0xD3, 2] ++ [7, 0x80, 0x80]) =
        { values := [0, 300] ++ [7], failure := some (.bufferExhausted 7) } := by
  have front : decodeAll .bits32 [0xFF, 0, 0xD3, 2] = ⟨[0, 300], none⟩ := by decide +kernel
  have behind : decodeAll .bits32 [7, 0x80, 0x80] = ⟨[7], some (.bufferExhausted 3)⟩ := by
    decide +kernel
  have complete : (decodeAll .bits32 [0xFF, 0, 0xD3, 2]).failure = none := by rw [front]
  obtain ⟨_, _, joined⟩ := decodeAll_eq_segmentation .bits32
  refine ⟨complete, ?_⟩
  rw [joined _ [7, 0x80, 0x80] complete, front, behind]
  rfl

end Quantity

end Septet
