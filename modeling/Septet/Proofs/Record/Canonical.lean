import Septet.Proofs.Quantity.Canonical
import Septet.Proofs.Record.Decoding

/-!
# Canonical records

Bytes start with at most one layout (`Layout.append_inj`), so they say how each length
and the number of fields are spelled.  A layout is canonical when all of these are
spelled as they would be written (`Layout.Canonical`).

Every layout holds a record that fits (`Layout.fits`), since what is read as a length is
never too large to be written.  Writing the record gives a layout of it that is no longer
(`Layout.length_encode_le`), and it is the same one exactly if that was canonical
(`Layout.encode_eq_iff`).  So reading and writing a record in turn keeps the record
whatever the bytes were, and keeps the bytes if they are canonical and nothing stands
behind them (`encode_decoded`).
-/

set_option autoImplicit false

namespace Septet.Record

open Quantity (Spelling)

variable {behind rest : Bytes}

/-! ## Layouts are unique -/

theorem Chunk.append_inj {first second : Chunk}
    (same : first.bytes ++ behind = second.bytes ++ rest) : first = second ∧ behind = rest := by
  rcases first with ⟨length, content, counted⟩
  rcases second with ⟨otherLength, otherContent, otherCounted⟩
  simp only [Chunk.bytes, List.append_assoc] at same
  obtain ⟨rfl, contents⟩ := Spelling.append_inj same
  obtain ⟨rfl, rfl⟩ := List.append_inj contents (counted.symm.trans otherCounted)
  exact ⟨rfl, rfl⟩

theorem bytesOf_append_inj {first : List Chunk} : ∀ {second : List Chunk},
    first.length = second.length → bytesOf first ++ behind = bytesOf second ++ rest →
      first = second ∧ behind = rest := by
  induction first with
  | nil =>
      intro second number same
      obtain rfl := List.length_eq_zero_iff.mp number.symm
      exact ⟨rfl, same⟩
  | cons chunk chunks ih =>
      intro second number same
      obtain ⟨other, others, rfl⟩ := List.exists_cons_of_length_eq_add_one number.symm
      rw [bytesOf_cons, bytesOf_cons, List.append_assoc, List.append_assoc] at same
      obtain ⟨rfl, remaining⟩ := Chunk.append_inj same
      obtain ⟨rfl, left⟩ := ih (Nat.succ.inj number) remaining
      exact ⟨rfl, left⟩

/-- **Bytes start with at most one layout.** -/
theorem Layout.append_inj {first second : Layout}
    (same : first.bytes ++ behind = second.bytes ++ rest) : first = second ∧ behind = rest := by
  rcases first with ⟨name, text, named, count, fields, counted⟩
  rcases second with ⟨otherName, otherText, otherNamed, otherCount, otherFields, otherCounted⟩
  simp only [Layout.bytes, List.append_assoc] at same
  obtain ⟨rfl, countSame⟩ := Chunk.append_inj same
  obtain ⟨rfl, fieldsSame⟩ := Spelling.append_inj countSame
  obtain ⟨rfl, left⟩ := bytesOf_append_inj (counted.symm.trans otherCounted) fieldsSame
  -- the texts are read from the same bytes
  have texts : Utf8.decode (Utf8.encode text) = Utf8.decode (Utf8.encode otherText) :=
    congrArg Utf8.decode (named.symm.trans otherNamed)
  rw [Utf8.decode_encode, Utf8.decode_encode] at texts
  cases texts
  exact ⟨rfl, left⟩

/-! ## Canonical layouts -/

/-- The length of a chunk is spelled as it would be written. -/
def Chunk.Canonical (chunk : Chunk) : Prop :=
  Quantity.encode .bits32 chunk.length.value = chunk.length.bytes

/-- The lengths and the number of fields are spelled as they would be written. -/
structure Layout.Canonical (layout : Layout) : Prop where
  name : layout.name.Canonical
  count : Quantity.encode .bits32 layout.count.value = layout.count.bytes
  fields : ∀ field ∈ layout.fields, field.Canonical

/-! ## Writing what a layout holds -/

theorem Chunk.length_content_lt (chunk : Chunk) : chunk.content.length < 2 ^ 32 := by
  rw [← chunk.counted]
  exact Nat.mod_lt _ Width.bits32.modulus_pos

/-- **The record that a layout holds fits.** -/
theorem Layout.fits (layout : Layout) : layout.record.Fits where
  name_lt := by
    rw [Layout.record, ← layout.named]
    exact layout.name.length_content_lt
  count_lt := by
    rw [Layout.record, List.length_map, ← layout.counted]
    exact Nat.mod_lt _ Width.bits32.modulus_pos
  field_lt := by
    intro field member
    obtain ⟨chunk, _, rfl⟩ := List.mem_map.mp member
    exact chunk.length_content_lt

theorem Chunk.length_encode_le (chunk : Chunk) :
    (encodeChunk chunk.content).length ≤ chunk.bytes.length := by
  rw [encodeChunk, Chunk.bytes, List.length_append, List.length_append, ← chunk.counted]
  exact Nat.add_le_add_right chunk.length.length_encode_value_le _

theorem length_flatMap_encode_le (chunks : List Chunk) :
    ((chunks.map Chunk.content).flatMap encodeChunk).length ≤ (bytesOf chunks).length := by
  induction chunks with
  | nil => exact Nat.le_refl 0
  | cons chunk chunks ih =>
      rw [List.map_cons, List.flatMap_cons, bytesOf_cons, List.length_append, List.length_append]
      exact Nat.add_le_add chunk.length_encode_le ih

/-- **What is written for a record is no longer than any layout of it.** -/
theorem Layout.length_encode_le (layout : Layout) :
    layout.record.encode.length ≤ layout.bytes.length := by
  have name := layout.name.length_encode_le
  have count := layout.count.length_encode_value_le
  have fields := length_flatMap_encode_le layout.fields
  rw [layout.named] at name
  rw [layout.counted] at count
  simp only [Record.encode, Layout.bytes, Layout.record, List.length_append, List.length_map]
  omega

/-! ## Layouts that are written -/

theorem Chunk.encode_append_eq_iff (chunk : Chunk) :
    encodeChunk chunk.content ++ rest = chunk.bytes ++ behind ↔
      chunk.Canonical ∧ rest = behind := by
  rw [encodeChunk, Chunk.bytes, List.append_assoc, List.append_assoc, ← chunk.counted,
    Quantity.encode_value_append_eq_iff, List.append_cancel_left_eq, Chunk.Canonical]

theorem flatMap_encode_append_eq_iff (chunks : List Chunk) :
    (chunks.map Chunk.content).flatMap encodeChunk ++ rest = bytesOf chunks ++ behind ↔
      (∀ chunk ∈ chunks, chunk.Canonical) ∧ rest = behind := by
  induction chunks with
  | nil => simp only [List.map_nil, List.flatMap_nil, bytesOf_nil, List.nil_append, List.not_mem_nil,
      false_imp_iff, implies_true, true_and]
  | cons chunk chunks ih =>
      rw [List.map_cons, List.flatMap_cons, bytesOf_cons, List.append_assoc, List.append_assoc,
        chunk.encode_append_eq_iff, ih, List.forall_mem_cons, and_assoc]

/-- **A layout is what is written for its record exactly if it is canonical.** -/
theorem Layout.encode_eq_iff (layout : Layout) :
    layout.record.encode = layout.bytes ++ behind ↔ behind = [] ∧ layout.Canonical := by
  have parts : layout.record.encode = encodeChunk layout.name.content ++
      (Quantity.encode .bits32 layout.count.value ++
        ((layout.fields.map Chunk.content).flatMap encodeChunk ++ [])) := by
    rw [Record.encode, Layout.record, List.length_map, ← layout.counted, ← layout.named,
      List.append_nil, List.append_assoc]
  rw [parts, Layout.bytes, List.append_assoc, List.append_assoc,
    layout.name.encode_append_eq_iff,
    Quantity.encode_value_append_eq_iff, flatMap_encode_append_eq_iff]
  constructor
  · rintro ⟨name, number, fields, none⟩
    exact ⟨none.symm, name, number, fields⟩
  · rintro ⟨none, canonical⟩
    exact ⟨canonical.name, canonical.count, canonical.fields, none.symm⟩

/-! ## Records that have been read -/

/-- **Writing a record that has been read takes no more bytes, and the same record is read from
them.**  They are the same bytes exactly if nothing stands behind the one layout that was read, and
its lengths and its number of fields are spelled as they would be written. -/
theorem encode_decoded {data : Bytes} {record : Record} (read : decode data = .ok record) :
    decode record.encode = .ok record ∧
      record.encode.length ≤ data.length ∧
      ∃ (layout : Layout) (behind : Bytes), data = layout.bytes ++ behind ∧
        layout.record = record ∧
          (∀ (other : Layout) (rest : Bytes), data = other.bytes ++ rest →
            other = layout ∧ rest = behind) ∧
          (record.encode = data ↔ behind = [] ∧ layout.Canonical) := by
  obtain ⟨layout, behind, rfl, rfl⟩ := decode_eq_ok_iff.mp read
  refine ⟨decode_encode layout.fits, ?_, layout, behind, rfl, rfl, ?_, layout.encode_eq_iff⟩
  · rw [List.length_append]
    exact Nat.le_add_right_of_le layout.length_encode_le
  · intro other rest same
    exact Layout.append_inj same.symm

/-- The length of the name has a group of zero, and a byte stands behind the record. -/
theorem encode_decoded_padded :
    decode [0xFE, 0, 97, 1, 0, 9] = .ok ⟨"a", [[]]⟩ ∧
      decode (Record.mk "a" [[]]).encode = .ok ⟨"a", [[]]⟩ ∧
      (Record.mk "a" [[]]).encode.length ≤ ([0xFE, 0, 97, 1, 0, 9] : Bytes).length ∧
      ∃ (layout : Layout) (behind : Bytes),
        [0xFE, 0, 97, 1, 0, 9] = layout.bytes ++ behind ∧ ¬(behind = [] ∧ layout.Canonical) := by
  have read : decode [0xFE, 0, 97, 1, 0, 9] = .ok ⟨"a", [[]]⟩ := by decide +kernel
  have apart : (Record.mk "a" [[]]).encode ≠ [0xFE, 0, 97, 1, 0, 9] := by decide +kernel
  obtain ⟨again, short, layout, behind, same, _, _, exactly⟩ := encode_decoded read
  exact ⟨read, again, short, layout, behind, same, fun canonical => apart (exactly.mpr canonical)⟩

end Septet.Record
