import Septet.Proofs.Record.Offsets
import Septet.Proofs.Record.RoundTrip

/-!
# What decoding a record gives

Decoding gives a record exactly for the bytes that start with a layout of it, and else
the refusal of the first part at fault (`decode_eq_iff`).  A refusal says that the data
end too early, that a length or the number of fields is too long, or that the name is no
text; no offset is ever outside the data.  However large a declared number is, a record
that is decoded is no longer than the data.

A fault stays where it is when the data are continued, unless it is that they end
(`Fault.append`), and nothing is left of a layout that is read to its end.  So each
proper initial part of a layout is refused because it ends too early
(`decode_take_layout`), and so is each of a written record (`decode_encode_take`).
-/

set_option autoImplicit false

namespace Septet

/-- The data end inside a length, the number of fields or a chunk. -/
inductive RecordError.EndsEarly : RecordError → Prop where
  | quantity (offset : Nat) : EndsEarly (.quantity (.bufferExhausted offset))
  | chunk (needed offset available : Nat) : EndsEarly (.truncated needed offset available)

namespace Record

variable {position : Nat} {bytes data : Bytes} {error : RecordError}

/-! ## Kinds of faults -/

theorem NoChunk.kind (none : NoChunk position bytes error) :
    error.EndsEarly ∨ error = .quantity (.overlong .bits32) := by
  cases none with
  | length unspelled =>
      cases unspelled with
      | exhausted => exact .inl (.quantity _)
      | overlong => exact .inr rfl
  | content => exact .inl (.chunk _ _ _)

theorem Fault.kind (fault : Fault data error) :
    error.EndsEarly ∨ error = .quantity (.overlong .bits32) ∨ ∃ cause, error = .name cause := by
  cases fault with
  | nameChunk none => exact none.kind.imp_right .inl
  | nameText _ _ _ _ => exact .inr (.inr ⟨_, rfl⟩)
  | count _ _ unspelled => exact (NoChunk.length unspelled).kind.imp_right .inl
  | field _ _ _ _ _ none => exact none.kind.imp_right .inl

/-! ## Lengths -/

theorem sum_le_length_bytesOf (chunks : List Chunk) :
    ((chunks.map Chunk.content).map fun field => 1 + field.length).sum ≤
      (bytesOf chunks).length := by
  induction chunks with
  | nil => exact Nat.le_refl 0
  | cons chunk chunks ih =>
      have length := chunk.length.length_bytes_pos
      simp only [List.map_cons, List.sum_cons, bytesOf_cons, List.length_append, Chunk.bytes]
      omega

/-- The parts of a record take no more room than its layout. -/
theorem Layout.sum_le_length (layout : Layout) :
    2 + (Utf8.encode layout.record.name).length +
        (layout.record.fields.map fun field => 1 + field.length).sum ≤ layout.bytes.length := by
  have name := layout.name.length.length_bytes_pos
  have count := layout.count.length_bytes_pos
  have fields := sum_le_length_bytesOf layout.fields
  simp only [Layout.bytes, Layout.record, List.length_append, Chunk.bytes, ← layout.named]
  omega

/-! ## Acceptance and refusal -/

theorem decode_eq_ok_iff {record : Record} :
    decode data = .ok record ↔
      ∃ (layout : Layout) (behind : Bytes), data = layout.bytes ++ behind ∧
        layout.record = record := by
  constructor
  · intro read
    rcases layout_or_fault data with ⟨layout, behind, rfl⟩ | ⟨error, fault⟩
    · rw [decode_layout] at read
      exact ⟨layout, behind, rfl, Except.ok.inj read⟩
    · rw [decode_of_fault fault] at read
      cases read
  · rintro ⟨layout, behind, rfl, rfl⟩
    exact decode_layout behind layout

theorem decode_eq_error_iff : decode data = .error error ↔ Fault data error := by
  constructor
  · intro refused
    rcases layout_or_fault data with ⟨layout, behind, rfl⟩ | ⟨actual, fault⟩
    · rw [decode_layout] at refused
      cases refused
    · rw [decode_of_fault fault] at refused
      cases refused
      exact fault
  · exact decode_of_fault

/-- **What decoding gives for any bytes**: the record that they start with a layout of, or else the
refusal of the first part at fault.  It is one of three kinds, also when the record is read by
offsets, and a record that is decoded is no longer than the bytes. -/
theorem decode_eq_iff (data : Bytes) :
    (∀ record, decode data = .ok record ↔
        ∃ (layout : Layout) (behind : Bytes), data = layout.bytes ++ behind ∧
          layout.record = record) ∧
      (∀ error, decode data = .error error ↔ Fault data error) ∧
      decodeByOffset data = decode data ∧
      (∀ error, decodeByOffset data = .error error →
        error.EndsEarly ∨ error = .quantity (.overlong .bits32) ∨ ∃ cause, error = .name cause) ∧
      ∀ record, decode data = .ok record →
        2 + (Utf8.encode record.name).length +
            (record.fields.map fun field => 1 + field.length).sum ≤ data.length := by
  refine ⟨fun record => decode_eq_ok_iff, fun error => decode_eq_error_iff,
    decodeByOffset_eq_decode data, ?_, ?_⟩
  · intro error refused
    rw [decodeByOffset_eq_decode] at refused
    exact (decode_eq_error_iff.mp refused).kind
  · intro record read
    obtain ⟨layout, behind, rfl, rfl⟩ := decode_eq_ok_iff.mp read
    rw [List.length_append]
    exact Nat.le_add_right_of_le layout.sum_le_length

/-- The length of the name has a group of zero, and a byte stands behind the record; in the other
bytes the name is no text. -/
theorem decode_eq_iff_padded :
    (∃ (layout : Layout) (behind : Bytes),
        [0xFE, 0, 97, 1, 0, 9] = layout.bytes ++ behind ∧ layout.record = ⟨"a", [[]]⟩) ∧
      2 + (Utf8.encode "a").length + ([[]].map fun field : Bytes => 1 + field.length).sum ≤
        ([0xFE, 0, 97, 1, 0, 9] : Bytes).length ∧
      Fault [1, 0xFF, 5] (.name ⟨0, [0xFF], .invalidStart⟩) := by
  have read : decode [0xFE, 0, 97, 1, 0, 9] = .ok ⟨"a", [[]]⟩ := by decide +kernel
  have refused : decode [1, 0xFF, 5] = .error (.name ⟨0, [0xFF], .invalidStart⟩) := by
    decide +kernel
  obtain ⟨accepted, _, _, _, short⟩ := decode_eq_iff [0xFE, 0, 97, 1, 0, 9]
  obtain ⟨_, rejected, _⟩ := decode_eq_iff [1, 0xFF, 5]
  exact ⟨(accepted ⟨"a", [[]]⟩).mp read, short ⟨"a", [[]]⟩ read, (rejected _).mp refused⟩

/-! ## Initial parts -/

theorem NoChunk.append (none : NoChunk position bytes error) (late : ¬error.EndsEarly)
    (more : Bytes) : NoChunk position (bytes ++ more) error := by
  cases none with
  | length unspelled =>
      exact .length (unspelled.append (fun offset same => late (same ▸ .quantity offset)) more)
  | content => exact absurd (.chunk _ _ _) late

/-- A fault that is not that the data end stays when they are continued. -/
theorem Fault.append (fault : Fault data error) (late : ¬error.EndsEarly) (more : Bytes) :
    Fault (data ++ more) error := by
  cases fault with
  | nameChunk none => exact .nameChunk (none.append late more)
  | nameText name rest noText refused =>
      rw [List.append_assoc]
      exact .nameText name (rest ++ more) noText refused
  | count name named unspelled =>
      rw [List.append_assoc]
      exact .count name named
        (unspelled.append (fun offset same => late (same ▸ .quantity offset)) more)
  | field name named count fields fewer none =>
      rw [List.append_assoc]
      exact .field name named count fields fewer (none.append late more)

/-- **A proper initial part of a layout ends too early.** -/
theorem decode_take_layout (layout : Layout) {length : Nat} (short : length < layout.bytes.length) :
    ∃ error, decode (layout.bytes.take length) = .error error ∧ error.EndsEarly := by
  have split := List.take_append_drop length layout.bytes
  rcases layout_or_fault (layout.bytes.take length) with ⟨first, behind, same⟩ | ⟨error, fault⟩
  · -- a layout that ended before would leave the bytes behind the cut unread
    have all := readRecord_layout 0 [] layout
    have some := readRecord_layout 0 (behind ++ layout.bytes.drop length) first
    rw [List.append_nil] at all
    rw [← List.append_assoc, ← same, split, all] at some
    have unread : behind ++ layout.bytes.drop length = [] := by
      injection some with _ left
      exact (congrArg BufferSource.unread left).symm
    have nothing := congrArg List.length (List.append_eq_nil_iff.mp unread).2
    rw [List.length_drop, List.length_nil] at nothing
    omega
  · refine ⟨error, decode_of_fault fault, ?_⟩
    by_contra late
    have refused := decode_of_fault (fault.append late (layout.bytes.drop length))
    have read := decode_layout [] layout
    rw [List.append_nil] at read
    rw [split, read] at refused
    cases refused

/-- **A record that fits is decoded from its written form, whatever comes behind it, and from no
proper initial part of it**: each of them ends too early. -/
theorem decode_encode_take {record : Record} (fits : record.Fits) :
    (∀ behind, decode (record.encode ++ behind) = .ok record) ∧
      ∀ length < record.encode.length,
        ∃ error, decode (record.encode.take length) = .error error ∧ error.EndsEarly := by
  refine ⟨fun behind => decode_encode_append behind fits, fun length short => ?_⟩
  obtain ⟨layout, written, _⟩ := exists_layout fits
  rw [← written] at short ⊢
  exact decode_take_layout layout short

/-- The second byte of a character is cut off. -/
theorem decode_encode_take_character :
    (Record.mk "é" [[1, 2]]).Fits ∧
      decode [2, 0xC3, 0xA9, 1, 2, 1, 2, 9] = .ok ⟨"é", [[1, 2]]⟩ ∧
        ∃ error, decode [2, 0xC3] = .error error ∧ error.EndsEarly := by
  have fits : (Record.mk "é" [[1, 2]]).Fits := by decide +kernel
  have written : (Record.mk "é" [[1, 2]]).encode = [2, 0xC3, 0xA9, 1, 2, 1, 2] := by
    decide +kernel
  obtain ⟨read, cut⟩ := decode_encode_take fits
  rw [written] at read cut
  exact ⟨fits, read [9], cut 2 (by decide)⟩

end Record

end Septet
