import Septet.Proofs.Quantity.Spelling
import Septet.Proofs.Text.Utf8Strict
import Septet.Record.Basic

/-!
# What is read as a record

A chunk is bytes behind a spelling of their length, and a layout is a record as it can
stand in a buffer: a chunk that holds the bytes of its name, a spelling of the number of
its fields, and a chunk for each of them.  Lengths and numbers may be spelled in any way
that is read as them, so one record has many layouts.

A fault is the first part of some bytes, from the left, that is not what a layout needs
there, together with its refusal.  Reading takes a layout as its record
(`readRecord_layout`) and refuses a fault (`decode_of_fault`).  Any bytes start with a
layout or have a fault (`layout_or_fault`), so these two cases say all about reading.
-/

set_option autoImplicit false

namespace Septet.Record

open Quantity (Spelling Unspelled)

/-! ## Layouts -/

/-- Bytes behind a spelling of their length. -/
structure Chunk where
  length : Spelling .bits32
  content : Bytes
  counted : length.value = content.length

def Chunk.bytes (chunk : Chunk) : Bytes :=
  chunk.length.bytes ++ chunk.content

/-- The bytes of chunks, one after the other. -/
def bytesOf (chunks : List Chunk) : Bytes :=
  chunks.flatMap Chunk.bytes

@[simp] theorem bytesOf_nil : bytesOf [] = [] := rfl

@[simp] theorem bytesOf_cons (chunk : Chunk) (chunks : List Chunk) :
    bytesOf (chunk :: chunks) = chunk.bytes ++ bytesOf chunks := rfl

/-- A record as it can stand in a buffer. -/
structure Layout where
  name : Chunk
  text : String
  named : name.content = Utf8.encode text
  count : Spelling .bits32
  fields : List Chunk
  counted : count.value = fields.length

namespace Layout

def bytes (layout : Layout) : Bytes :=
  layout.name.bytes ++ layout.count.bytes ++ bytesOf layout.fields

/-- The record that a layout holds. -/
def record (layout : Layout) : Record where
  name := layout.text
  fields := layout.fields.map Chunk.content

end Layout

/-! ## Faults -/

/-- Why no chunk stands at the start of bytes at a position. -/
inductive NoChunk (position : Nat) : Bytes → RecordError → Prop where
  | length {bytes : Bytes} {cause : StreamError}
      (unspelled : Unspelled .bits32 position bytes cause) :
      NoChunk position bytes (.quantity cause)
  /-- Fewer bytes stand behind a length than it says. -/
  | content (length : Spelling .bits32) {rest : Bytes} (short : rest.length < length.value) :
      NoChunk position (length.bytes ++ rest)
        (.truncated length.value (position + length.bytes.length) rest.length)

/-- The first part of bytes that is not what a layout needs there, by its refusal. -/
inductive Fault : Bytes → RecordError → Prop where
  | nameChunk {bytes : Bytes} {error : RecordError} (none : NoChunk 0 bytes error) :
      Fault bytes error
  /-- The bytes of the name are those of no text. -/
  | nameText (name : Chunk) (rest : Bytes) {cause : Utf8.Error}
      (noText : ∀ text, name.content ≠ Utf8.encode text)
      (refused : Utf8.decode name.content = .error cause) :
      Fault (name.bytes ++ rest) (.name cause)
  | count (name : Chunk) {text : String} (named : name.content = Utf8.encode text)
      {rest : Bytes} {cause : StreamError}
      (unspelled : Unspelled .bits32 name.bytes.length rest cause) :
      Fault (name.bytes ++ rest) (.quantity cause)
  /-- A field is missing behind fewer fields than their number says. -/
  | field (name : Chunk) {text : String} (named : name.content = Utf8.encode text)
      (count : Spelling .bits32) (fields : List Chunk) (fewer : fields.length < count.value)
      {rest : Bytes} {error : RecordError}
      (none : NoChunk (name.bytes ++ count.bytes ++ bytesOf fields).length rest error) :
      Fault (name.bytes ++ count.bytes ++ bytesOf fields ++ rest) error

/-! ## Layout or fault -/

variable (position : Nat)

theorem chunk_or_noChunk (bytes : Bytes) :
    (∃ (chunk : Chunk) (rest : Bytes), bytes = chunk.bytes ++ rest) ∨
      ∃ error, NoChunk position bytes error := by
  rcases Quantity.spelled_or_unspelled .bits32 position bytes with
    ⟨length, rest, rfl⟩ | ⟨cause, unspelled⟩
  · by_cases short : rest.length < length.value
    · exact .inr ⟨_, .content length short⟩
    · have long := List.length_take_of_le (Nat.le_of_not_lt short)
      refine .inl ⟨⟨length, rest.take length.value, long.symm⟩, rest.drop length.value, ?_⟩
      rw [Chunk.bytes, List.append_assoc, List.take_append_drop]
  · exact .inr ⟨_, .length unspelled⟩

/-- Bytes start with as many chunks as asked for, or one is missing behind fewer. -/
theorem chunks_or_noChunk (count : Nat) : ∀ (position : Nat) (bytes : Bytes),
    (∃ (chunks : List Chunk) (rest : Bytes), chunks.length = count ∧
        bytes = bytesOf chunks ++ rest) ∨
      ∃ (chunks : List Chunk) (rest : Bytes) (error : RecordError), chunks.length < count ∧
        bytes = bytesOf chunks ++ rest ∧
          NoChunk (position + (bytesOf chunks).length) rest error := by
  induction count with
  | zero =>
      intro position bytes
      exact .inl ⟨[], bytes, rfl, rfl⟩
  | succ count ih =>
      intro position bytes
      rcases chunk_or_noChunk position bytes with ⟨chunk, rest, rfl⟩ | ⟨error, none⟩
      · rcases ih (position + chunk.bytes.length) rest with
          ⟨chunks, behind, number, rfl⟩ | ⟨chunks, behind, error, fewer, rfl, none⟩
        · refine .inl ⟨chunk :: chunks, behind, congrArg (· + 1) number, ?_⟩
          rw [bytesOf_cons, List.append_assoc]
        · refine .inr ⟨chunk :: chunks, behind, error, Nat.succ_lt_succ fewer, ?_, ?_⟩
          · rw [bytesOf_cons, List.append_assoc]
          · rwa [bytesOf_cons, List.length_append, ← Nat.add_assoc]
      · exact .inr ⟨[], bytes, error, Nat.succ_pos count, rfl, none⟩

/-- **Any bytes start with a layout or have a fault.** -/
theorem layout_or_fault (data : Bytes) :
    (∃ (layout : Layout) (behind : Bytes), data = layout.bytes ++ behind) ∨
      ∃ error, Fault data error := by
  rcases chunk_or_noChunk 0 data with ⟨name, rest, rfl⟩ | ⟨error, none⟩
  · cases read : Utf8.decode name.content with
    | error cause =>
        refine .inr ⟨_, .nameText name rest (fun text same => ?_) read⟩
        rw [Utf8.decode_eq_ok_iff.mpr same] at read
        cases read
    | ok text =>
        have named := Utf8.decode_eq_ok_iff.mp read
        rcases Quantity.spelled_or_unspelled .bits32 name.bytes.length rest with
          ⟨count, rest, rfl⟩ | ⟨cause, unspelled⟩
        · rcases chunks_or_noChunk count.value (name.bytes ++ count.bytes).length rest with
            ⟨fields, behind, number, rfl⟩ | ⟨fields, rest, error, fewer, rfl, none⟩
          · refine .inl ⟨⟨name, text, named, count, fields, number.symm⟩, behind, ?_⟩
            simp only [Layout.bytes, List.append_assoc]
          · rw [← List.length_append] at none
            have fault := Fault.field name named count fields fewer none
            simp only [List.append_assoc] at fault
            exact .inr ⟨error, fault⟩
        · exact .inr ⟨_, .count name named unspelled⟩
  · exact .inr ⟨_, .nameChunk none⟩

/-! ## Reading layouts -/

variable (rest : Bytes)

theorem readQuantity_spelling (spelling : Spelling .bits32) :
    readQuantity ⟨position, spelling.bytes ++ rest⟩ =
      .ok spelling.value ⟨position + spelling.bytes.length, rest⟩ := by
  simp only [readQuantity, Quantity.unpack_spelling]

theorem readBytes_append (bytes : Bytes) :
    readBytes bytes.length ⟨position, bytes ++ rest⟩ =
      .ok bytes ⟨position + bytes.length, rest⟩ := by
  simp only [readBytes, List.splitAt_eq, List.take_left, List.drop_left, Nat.lt_irrefl, if_false]

theorem readChunk_chunk (chunk : Chunk) :
    readChunk ⟨position, chunk.bytes ++ rest⟩ =
      .ok chunk.content ⟨position + chunk.bytes.length, rest⟩ := by
  simp only [readChunk, bind, EStateM.bind, Chunk.bytes, List.append_assoc,
    readQuantity_spelling, chunk.counted, readBytes_append, List.length_append, Nat.add_assoc]

/-- Chunks are read as fields, and more fields may be left to be read behind them. -/
theorem readFields_bytesOf (left : Nat) (chunks : List Chunk) :
    ∀ (position : Nat) (earlier : List Bytes),
      readFields (chunks.length + left) earlier ⟨position, bytesOf chunks ++ rest⟩ =
        readFields left ((chunks.map Chunk.content).reverse ++ earlier)
          ⟨position + (bytesOf chunks).length, rest⟩ := by
  induction chunks with
  | nil =>
      intro position earlier
      simp only [List.length_nil, Nat.zero_add, bytesOf_nil, List.nil_append, List.map_nil,
        List.reverse_nil, Nat.add_zero]
  | cons chunk chunks ih =>
      intro position earlier
      rw [List.length_cons, Nat.add_right_comm, bytesOf_cons, List.append_assoc]
      simp only [readFields, bind, EStateM.bind, readChunk_chunk, ih, List.map_cons,
        List.reverse_cons, List.append_assoc, List.singleton_append, List.length_append,
        Nat.add_assoc]

theorem readName_chunk (chunk : Chunk) {text : String} (named : chunk.content = Utf8.encode text) :
    readName ⟨position, chunk.bytes ++ rest⟩ =
      .ok text ⟨position + chunk.bytes.length, rest⟩ := by
  simp only [readName, bind, EStateM.bind, readChunk_chunk, named, Utf8.decode_encode, pure,
    EStateM.pure]

/-- **A layout is read as its record, and what comes behind it stays unread.** -/
theorem readRecord_layout (layout : Layout) :
    readRecord ⟨position, layout.bytes ++ rest⟩ =
      .ok layout.record ⟨position + layout.bytes.length, rest⟩ := by
  have fields := readFields_bytesOf rest 0 layout.fields
  simp only [Nat.add_zero, ← layout.counted] at fields
  simp only [readRecord, bind, EStateM.bind, Layout.bytes, List.append_assoc,
    readName_chunk _ _ layout.name layout.named, readQuantity_spelling, fields, readFields, pure,
    EStateM.pure, List.append_nil, List.reverse_reverse, List.length_append, Nat.add_assoc,
    Layout.record]

theorem decode_layout (layout : Layout) : decode (layout.bytes ++ rest) = .ok layout.record := by
  simp only [decode, BufferSource.ofBytes, readRecord_layout]

/-! ## Refusing faults -/

variable {position} {bytes : Bytes} {error : RecordError}

theorem readQuantity_unspelled {cause : StreamError}
    (unspelled : Unspelled .bits32 position bytes cause) :
    ∃ after, readQuantity ⟨position, bytes⟩ = .error (.quantity cause) after := by
  obtain ⟨after, refused⟩ := Quantity.unpack_unspelled unspelled
  exact ⟨after, by simp only [readQuantity, refused]⟩

theorem readBytes_short {length : Nat} (short : bytes.length < length) :
    readBytes length ⟨position, bytes⟩ =
      .error (.truncated length position bytes.length) ⟨position, bytes⟩ := by
  have cut : (bytes.take length).length < length :=
    Nat.lt_of_le_of_lt (List.length_take_le' length bytes) short
  simp only [readBytes, List.splitAt_eq, cut, if_true]

theorem readChunk_noChunk (none : NoChunk position bytes error) :
    ∃ after, readChunk ⟨position, bytes⟩ = .error error after := by
  cases none with
  | length unspelled =>
      obtain ⟨after, refused⟩ := readQuantity_unspelled unspelled
      exact ⟨after, by simp only [readChunk, bind, EStateM.bind, refused]⟩
  | @content length rest short =>
      refine ⟨⟨position + length.bytes.length, rest⟩, ?_⟩
      simp only [readChunk, bind, EStateM.bind, readQuantity_spelling, readBytes_short short]

theorem readName_noText (name : Chunk) {cause : Utf8.Error}
    (refused : Utf8.decode name.content = .error cause) :
    readName ⟨position, name.bytes ++ rest⟩ =
      .error (.name cause) ⟨position + name.bytes.length, rest⟩ := by
  simp only [readName, bind, EStateM.bind, readChunk_chunk, refused]
  rfl

/-- **A fault is refused.** -/
theorem decode_of_fault {data : Bytes} (fault : Fault data error) : decode data = .error error := by
  cases fault with
  | nameChunk none =>
      obtain ⟨after, refused⟩ := readChunk_noChunk none
      simp only [decode, BufferSource.ofBytes, readRecord, readName, bind, EStateM.bind, refused]
  | nameText name rest noText refused =>
      simp only [decode, BufferSource.ofBytes, readRecord, bind, EStateM.bind,
        readName_noText _ name refused]
  | count name named unspelled =>
      obtain ⟨after, refused⟩ := readQuantity_unspelled unspelled
      simp only [decode, BufferSource.ofBytes, readRecord, bind, EStateM.bind,
        readName_chunk _ _ name named, Nat.zero_add, refused]
  | @field name text named count fields fewer rest error none =>
      obtain ⟨left, more⟩ := Nat.exists_eq_add_of_lt fewer
      obtain ⟨after, refused⟩ := readChunk_noChunk none
      simp only [List.length_append, Nat.add_assoc] at refused
      have missing := readFields_bytesOf rest (left + 1) fields
      simp only [← Nat.add_assoc, ← more] at missing
      simp only [decode, BufferSource.ofBytes, readRecord, bind, EStateM.bind, List.append_assoc,
        readName_chunk _ _ name named, readQuantity_spelling, missing, readFields, Nat.zero_add,
        Nat.add_assoc, refused]

end Septet.Record
