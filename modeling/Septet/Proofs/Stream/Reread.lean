import Septet.Proofs.Quantity.RoundTrip
import Septet.Proofs.Stream.Interchange

/-!
# Quantities in a file are read back

Quantities that are packed one after the other, of whatever widths, are the bytes of all
of them joined (`packAll_eq_putAll`).  A buffer source that starts with these gives the
numbers in order and stands behind them then (`unpackAll_bytesOf`).

A file reads as a buffer does.  So once quantities have been packed into a file, they are
read back from where they begin, although what the file held before may follow directly
behind them (`unpackAll_packAll`).
-/

set_option autoImplicit false

namespace Septet

namespace Quantity

/-- An integer to be written as a quantity of a width. -/
structure Item where
  width : Width
  integer : Int
  deriving DecidableEq, Repr

/-- The bytes of quantities one after the other. -/
def bytesOf (items : List Item) : Bytes :=
  items.flatMap fun item => encode item.width item.integer

variable {σ : Type}

/-- Packs quantities one after the other, up to the first that the sink refuses. -/
def packAll [ByteSink σ] (items : List Item) : StreamM σ Unit :=
  forM items fun item => pack item.width item.integer

/-- Unpacks quantities of some widths one after the other, up to the first that cannot be read. -/
def unpackAll [ByteSource σ] (widths : List Width) : StreamM σ (List Nat) :=
  widths.mapM unpack

/-! ## Sequences of quantities -/

theorem packAll_eq_putAll [ByteSink σ] (items : List Item) :
    (packAll items : StreamM σ Unit) = ByteSink.putAll (bytesOf items) :=
  forM_putAll _ items

/-- **Quantities are read in order, and what comes behind them stays unread.** -/
theorem unpackAll_bytesOf (rest : Bytes) (items : List Item) : ∀ position : Nat,
    unpackAll (items.map Item.width) (⟨position, bytesOf items ++ rest⟩ : BufferSource) =
      .ok (items.map fun item => item.width.reduce item.integer)
        ⟨position + (bytesOf items).length, rest⟩ := by
  induction items with
  | nil =>
      intro position
      rfl
  | cons item items ih =>
      intro position
      have first := unpack_encode item.width position (bytesOf items ++ rest) item.integer
      have others := ih (position + (encode item.width item.integer).length)
      have split : bytesOf (item :: items) = encode item.width item.integer ++ bytesOf items :=
        List.flatMap_cons
      rw [unpackAll] at others ⊢
      rw [split, List.append_assoc, List.map_cons, List.map_cons, List.mapM_cons]
      simp only [bind, EStateM.bind, first, others, pure, EStateM.pure, List.length_append,
        Nat.add_assoc]

theorem readsAlike_unpackAll {content : Bytes} (widths : List Width) :
    ReadsAlike content (unpackAll widths) (unpackAll widths) := by
  induction widths with
  | nil => exact readsAlike_pure []
  | cons width widths ih =>
      simp only [unpackAll, List.mapM_cons] at ih ⊢
      exact (readsAlike_unpack width).bind fun number =>
        ih.bind fun numbers => readsAlike_pure (number :: numbers)

/-- **A file gives the quantities that stand at its position**, and is behind them then. -/
theorem unpackAll_file {content : Bytes} {position : Nat} (items : List Item)
    {rest : Bytes} (standing : content.drop position = bytesOf items ++ rest) :
    unpackAll (items.map Item.width) ({ content, position } : ByteFile) =
      .ok (items.map fun item => item.width.reduce item.integer)
        { content, position := position + (bytesOf items).length } := by
  have mirrors : Mirrors content ⟨position, bytesOf items ++ rest⟩ { content, position } :=
    ⟨standing.symm, rfl⟩
  have inBuffer := unpackAll_bytesOf rest items position
  obtain ⟨same, after⟩ := readsAlike_unpackAll (items.map Item.width) mirrors
  rw [StreamM.outcome_ok inBuffer] at same
  rw [StreamM.left_ok inBuffer] at after
  rw [StreamM.eq_ok_of_outcome same.eq_ok, after.eq_file]

/-! ## Reading back -/

/-- **Quantities that have been packed into a file are read back from where they begin.**  Packing
changes nothing in front of them and nothing behind them, and the file grows only as far as they
reach. -/
theorem unpackAll_packAll {content : Bytes} {position : Nat} (inside : position ≤ content.length)
    (items : List Item) :
    ∃ packed : ByteFile,
      packAll items ({ content, position } : ByteFile) = .ok () packed ∧
        packed.position = position + (bytesOf items).length ∧
        packed.content.take position = content.take position ∧
        packed.content.drop packed.position = content.drop packed.position ∧
        packed.content.length = max content.length (position + (bytesOf items).length) ∧
        ∃ numbers : List Nat,
          numbers.map Int.ofNat = items.map (fun item => item.integer % 2 ^ item.width.bits) ∧
            (do ByteFile.seek position; unpackAll (items.map Item.width)) packed =
              .ok numbers packed := by
  let file : ByteFile := { content, position }
  have placed : file.Inside := inside
  have packed : packAll items file = .ok () (file.written (bytesOf items)) := by
    rw [packAll_eq_putAll, ByteFile.putAll_of_allows placed (ByteFile.allows_of_unlimited rfl)]
  have reread : unpackAll (items.map Item.width)
      ({ file.written (bytesOf items) with position } : ByteFile) =
        .ok _ (file.written (bytesOf items)) :=
    unpackAll_file items (ByteFile.drop_written placed (bytesOf items))
  refine ⟨_, packed, rfl, ByteFile.take_written placed _, ByteFile.drop_behind_written placed _,
    ByteFile.length_written placed _, items.map fun item => item.width.reduce item.integer, ?_, ?_⟩
  · rw [List.map_map]
    exact List.map_congr_left fun item _ => natCast_reduce item.width item.integer
  · simp only [bind, EStateM.bind, ByteFile.seek_natCast, reread]

/-- What the file held before goes on with a byte that would continue a quantity. -/
theorem unpackAll_packAll_leftover :
    1 ≤ ([9, 9, 9, 9, 9, 9, 9, 9, 0x80, 7] : Bytes).length ∧
      ∃ packed : ByteFile,
        packAll [⟨.bits32, -1⟩, ⟨.bits64, 300⟩]
            ({ content := [9, 9, 9, 9, 9, 9, 9, 9, 0x80, 7], position := 1 } : ByteFile) =
          .ok () packed ∧
        packed.position = 8 ∧ packed.content.drop 8 = [0x80, 7] ∧
          ∃ numbers : List Nat, numbers.map Int.ofNat = [4294967295, 300] ∧
            (do ByteFile.seek 1; unpackAll [.bits32, .bits64]) packed = .ok numbers packed := by
  have inside : 1 ≤ ([9, 9, 9, 9, 9, 9, 9, 9, 0x80, 7] : Bytes).length := by decide
  have seven : (bytesOf [⟨.bits32, -1⟩, ⟨.bits64, 300⟩]).length = 7 := by decide +kernel
  obtain ⟨packed, done, reached, _, behind, _, numbers, values, reread⟩ :=
    unpackAll_packAll inside [⟨.bits32, -1⟩, ⟨.bits64, 300⟩]
  rw [seven] at reached
  rw [reached] at behind
  exact ⟨inside, packed, done, reached, behind, numbers, values, reread⟩

end Quantity

end Septet
