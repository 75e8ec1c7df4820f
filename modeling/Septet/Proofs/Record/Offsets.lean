import Septet.Proofs.Record.Layout

/-!
# Reading a record by offsets

A record can be read from a whole buffer with an offset that moves along: each length
and the number of fields are decoded at the offset, and a chunk is cut out of the buffer
behind it.  A reader that carries what is still unread does the same, wherever in the
buffer it starts (`Follows`): it ends at the offset that the other one returns, and what
it leaves unread is what stands there.  The offset never leaves the buffer, and both
give the same for every buffer (`decodeByOffset_eq_decode`).
-/

set_option autoImplicit false

namespace Septet.Record

variable (data : Bytes)

/-! ## Reading by offsets -/

/-- The quantity at an offset, and the offset behind it. -/
def quantityAt (offset : Nat) : Except RecordError (Nat × Nat) :=
  match Quantity.decode .bits32 data offset with
  | .ok found => .ok (found.value, offset + found.consumed)
  | .error cause => .error (.quantity cause)

/-- As many bytes as asked for at an offset, and the offset behind them. -/
def bytesAt (length offset : Nat) : Except RecordError (Bytes × Nat) :=
  if data.length < offset + length then
    .error (.truncated length offset (data.length - offset))
  else .ok ((data.drop offset).take length, offset + length)

/-- The bytes behind their length at an offset. -/
def chunkAt (offset : Nat) : Except RecordError (Bytes × Nat) := do
  let found ← quantityAt data offset
  bytesAt data found.1 found.2

/-- As many fields as asked for at an offset; `earlier` are the fields before them, last one
first. -/
def fieldsAt : Nat → List Bytes → Nat → Except RecordError (List Bytes × Nat)
  | 0, earlier, offset => .ok (earlier.reverse, offset)
  | left + 1, earlier, offset => do
      let found ← chunkAt data offset
      fieldsAt left (found.1 :: earlier) found.2

/-- The name behind its length at an offset. -/
def nameAt (offset : Nat) : Except RecordError (String × Nat) := do
  let found ← chunkAt data offset
  match Utf8.decode found.1 with
  | .ok name => .ok (name, found.2)
  | .error cause => .error (.name cause)

/-- The record at an offset. -/
def recordAt (offset : Nat) : Except RecordError (Record × Nat) := do
  let name ← nameAt data offset
  let count ← quantityAt data name.2
  let fields ← fieldsAt data count.1 [] count.2
  .ok ({ name := name.1, fields := fields.1 }, fields.2)

/-- The record at the start of a buffer, read by offsets. -/
def decodeByOffset : Except RecordError Record :=
  (recordAt data 0).map Prod.fst

/-! ## Readers that follow an offset -/

variable {data}

/-- A reader does wherever it starts what is done by offsets, and ends inside the buffer. -/
def Follows {α : Type} (data : Bytes) (reader : Reader α)
    (byOffset : Nat → Except RecordError (α × Nat)) : Prop :=
  ∀ offset, offset ≤ data.length →
    (∃ value next, next ≤ data.length ∧ byOffset offset = .ok (value, next) ∧
        reader ⟨offset, data.drop offset⟩ = .ok value ⟨next, data.drop next⟩) ∨
      ∃ error after, byOffset offset = .error error ∧
        reader ⟨offset, data.drop offset⟩ = .error error after

namespace Follows

variable {α β : Type}

theorem pure (value : α) :
    Follows data (Pure.pure value) fun offset => .ok (value, offset) := by
  intro offset inside
  exact .inl ⟨value, offset, inside, rfl, rfl⟩

theorem bind {first : Reader α} {firstAt : Nat → Except RecordError (α × Nat)}
    {next : α → Reader β} {nextAt : α × Nat → Except RecordError (β × Nat)}
    (before : Follows data first firstAt)
    (behind : ∀ value, Follows data (next value) fun offset => nextAt (value, offset)) :
    Follows data (first >>= next) fun offset => firstAt offset >>= nextAt := by
  intro offset inside
  rcases before offset inside with
    ⟨value, between, inside', found, read⟩ | ⟨error, after, refused, failed⟩
  · rcases behind value between inside' with
      ⟨result, last, inside'', found', read'⟩ | ⟨error, after, refused, failed⟩
    · refine .inl ⟨result, last, inside'', ?_, ?_⟩
      · simp only [found, found', Bind.bind, Except.bind]
      · simp only [Bind.bind, EStateM.bind, read, read']
    · refine .inr ⟨error, after, ?_, ?_⟩
      · simp only [found, refused, Bind.bind, Except.bind]
      · simp only [Bind.bind, EStateM.bind, read, failed]
  · refine .inr ⟨error, after, ?_, ?_⟩
    · simp only [refused, Bind.bind, Except.bind]
    · simp only [Bind.bind, EStateM.bind, failed]

end Follows

/-- A length is read where it is decoded. -/
theorem follows_quantityAt : Follows data readQuantity (quantityAt data) := by
  intro offset inside
  have decoded := Quantity.decode_inside .bits32 (Int.natCast_nonneg offset)
    (Int.ofNat_le.mpr inside)
  rw [Int.toNat_natCast] at decoded
  rcases Quantity.spelled_or_unspelled .bits32 offset (data.drop offset) with
    ⟨spelling, rest, split⟩ | ⟨cause, unspelled⟩
  · have next : offset + spelling.bytes.length ≤ data.length := by
      have length := congrArg List.length split
      rw [List.length_drop, List.length_append] at length
      omega
    have behind : rest = data.drop (offset + spelling.bytes.length) := by
      rw [← List.drop_drop, split, List.drop_left]
    rw [split, Quantity.unpack_spelling] at decoded
    refine .inl ⟨spelling.value, _, next, ?_, ?_⟩
    · simp only [quantityAt, decoded, Nat.add_sub_cancel_left]
    · rw [split, readQuantity_spelling, behind]
  · obtain ⟨after, refused⟩ := readQuantity_unspelled unspelled
    obtain ⟨after', refused'⟩ := Quantity.unpack_unspelled unspelled
    rw [refused'] at decoded
    refine .inr ⟨_, after, ?_, refused⟩
    simp only [quantityAt, decoded]

theorem follows_bytesAt (length : Nat) : Follows data (readBytes length) (bytesAt data length) := by
  intro offset inside
  by_cases short : data.length < offset + length
  · have cut : (data.drop offset).length < length := by
      rw [List.length_drop]
      omega
    refine .inr ⟨_, ⟨offset, data.drop offset⟩, if_pos short, ?_⟩
    rw [readBytes_short cut, List.length_drop]
  · have long : length ≤ (data.drop offset).length := by
      rw [List.length_drop]
      omega
    refine .inl ⟨_, offset + length, Nat.le_of_not_lt short, if_neg short, ?_⟩
    have all := List.length_take_of_le long
    have read := readBytes_append offset ((data.drop offset).drop length)
      ((data.drop offset).take length)
    rwa [all, List.take_append_drop, List.drop_drop] at read

theorem follows_chunkAt : Follows data readChunk (chunkAt data) :=
  follows_quantityAt.bind follows_bytesAt

theorem follows_fieldsAt (count : Nat) :
    ∀ earlier, Follows data (readFields count earlier) (fieldsAt data count earlier) := by
  induction count with
  | zero => exact fun earlier => Follows.pure earlier.reverse
  | succ count ih => exact fun earlier => follows_chunkAt.bind fun field => ih (field :: earlier)

theorem follows_nameAt : Follows data readName (nameAt data) := by
  refine follows_chunkAt.bind fun chunk => ?_
  intro offset inside
  cases read : Utf8.decode chunk with
  | ok name => exact .inl ⟨name, offset, inside, by simp only [read], rfl⟩
  | error cause => exact .inr ⟨.name cause, _, by simp only [read], rfl⟩

theorem follows_recordAt : Follows data readRecord (recordAt data) := by
  refine follows_nameAt.bind fun name => ?_
  dsimp only
  refine follows_quantityAt.bind fun count => ?_
  dsimp only
  refine (follows_fieldsAt count []).bind fun fields => ?_
  exact Follows.pure (⟨name, fields⟩ : Record)

/-- **A record is read by offsets as it is read from a source.** -/
theorem decodeByOffset_eq_decode (data : Bytes) : decodeByOffset data = decode data := by
  rcases follows_recordAt 0 (Nat.zero_le data.length) with
    ⟨record, next, _, found, read⟩ | ⟨error, after, refused, failed⟩
  · rw [List.drop_zero] at read
    simp only [decodeByOffset, found, Except.map, decode, BufferSource.ofBytes, read]
  · rw [List.drop_zero] at failed
    simp only [decodeByOffset, refused, Except.map, decode, BufferSource.ofBytes, failed]

end Septet.Record
