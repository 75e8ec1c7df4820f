import Septet.Proofs.Quantity.RoundTrip
import Septet.Proofs.Record.Layout

/-!
# Records are read back as they were written

A record fits when its lengths and the number of its fields are below two to the
32nd, so that they are written as they are.  Then the writer of each part writes what a
layout has there: bytes behind their length are a chunk (`exists_chunk`), fields are
chunks (`exists_chunks`), and what is written for the whole record is a layout of it
(`exists_layout`).  So a record that fits is decoded from its written form, with or
without more bytes behind it (`decode_encode_append`).
-/

set_option autoImplicit false

namespace Septet.Record

/-- A record whose lengths and number of fields are quantities of 32 bits. -/
structure Fits (record : Record) : Prop where
  name_lt : (Utf8.encode record.name).length < 2 ^ 32
  count_lt : record.fields.length < 2 ^ 32
  field_lt : ∀ field ∈ record.fields, field.length < 2 ^ 32

instance (record : Record) : Decidable record.Fits :=
  decidable_of_iff
    ((Utf8.encode record.name).length < 2 ^ 32 ∧ record.fields.length < 2 ^ 32 ∧
      ∀ field ∈ record.fields, field.length < 2 ^ 32)
    ⟨fun ⟨name, count, field⟩ => ⟨name, count, field⟩,
      fun fits => ⟨fits.name_lt, fits.count_lt, fits.field_lt⟩⟩

/-! ## What is written -/

/-- What is written for a length below two to the 32nd is a spelling of it. -/
theorem exists_spelling_of_lt {length : Nat} (below : length < 2 ^ 32) :
    ∃ spelling : Quantity.Spelling .bits32,
      spelling.bytes = Quantity.encode .bits32 length ∧ spelling.value = length := by
  obtain ⟨spelling, written, value⟩ := Quantity.exists_spelling .bits32 length
  have reduced : Width.bits32.reduce length = length := Quantity.reduce_natCast below
  exact ⟨spelling, written, value.trans reduced⟩

theorem exists_chunk {content : Bytes} (below : content.length < 2 ^ 32) :
    ∃ chunk : Chunk, chunk.bytes = encodeChunk content ∧ chunk.content = content := by
  obtain ⟨spelling, written, value⟩ := exists_spelling_of_lt below
  exact ⟨⟨spelling, content, value⟩, congrArg (· ++ content) written, rfl⟩

theorem exists_chunks (fields : List Bytes) : (∀ field ∈ fields, field.length < 2 ^ 32) →
    ∃ chunks, bytesOf chunks = fields.flatMap encodeChunk ∧
      chunks.map Chunk.content = fields := by
  induction fields with
  | nil => exact fun _ => ⟨[], rfl, rfl⟩
  | cons field fields ih =>
      intro below
      obtain ⟨chunk, first, content⟩ := exists_chunk (below field List.mem_cons_self)
      obtain ⟨chunks, others, contents⟩ :=
        ih fun other member => below other (List.mem_cons_of_mem field member)
      refine ⟨chunk :: chunks, ?_, ?_⟩
      · rw [bytesOf_cons, first, others, List.flatMap_cons]
      · rw [List.map_cons, content, contents]

/-- **What is written for a record that fits is a layout of it.** -/
theorem exists_layout {record : Record} (fits : record.Fits) :
    ∃ layout : Layout, layout.bytes = record.encode ∧ layout.record = record := by
  obtain ⟨name, nameWritten, named⟩ := exists_chunk fits.name_lt
  obtain ⟨count, countWritten, number⟩ := exists_spelling_of_lt fits.count_lt
  obtain ⟨fields, fieldsWritten, contents⟩ := exists_chunks record.fields fits.field_lt
  have counted : count.value = fields.length := by
    rw [number, ← contents, List.length_map]
  refine ⟨⟨name, record.name, named, count, fields, counted⟩, ?_, ?_⟩
  · rw [Layout.bytes, nameWritten, countWritten, fieldsWritten, encode]
  · rw [Layout.record, contents]

/-! ## Whole records -/

/-- A record is decoded from its written form, whatever comes behind it. -/
theorem decode_encode_append (behind : Bytes) {record : Record} (fits : record.Fits) :
    decode (record.encode ++ behind) = .ok record := by
  obtain ⟨layout, written, same⟩ := exists_layout fits
  rw [← written, decode_layout, same]

/-- **A record that fits is decoded from its written form.** -/
theorem decode_encode {record : Record} (fits : record.Fits) :
    decode record.encode = .ok record := by
  simpa using decode_encode_append [] fits

end Septet.Record
