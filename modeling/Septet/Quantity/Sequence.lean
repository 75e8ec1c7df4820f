import Septet.Quantity.Basic

/-!
# Sequences of quantities

Quantities written one after the other are read back one after the other, until
the buffer is used up or a quantity cannot be read.  What had been read before a
failure is kept beside its cause.

Every quantity takes at least one byte (`unread_length_lt_of_unpack`), so the
unread part shrinks and reading ends.
-/

namespace Septet.Quantity

set_option autoImplicit false

/-! ## A quantity takes a byte -/

theorem unread_length_lt_of_unpackGroups (width : Width) :
    ∀ (left place total value : Nat) (before after : BufferSource),
      unpackGroups width left place total before = .ok value after →
        after.unread.length < before.unread.length
  | 0, _, _, _, _, _, read => by cases read
  | left + 1, place, total, value, ⟨position, []⟩, after, read => by cases read
  | left + 1, place, total, value, ⟨position, byte :: rest⟩, after, read => by
      by_cases final : byte.toNat < 128
      · simp only [unpackGroups, bind, EStateM.bind, ByteSource.next, final, if_true, pure,
          EStateM.pure] at read
        cases read
        exact Nat.lt_succ_self _
      · simp only [unpackGroups, bind, EStateM.bind, ByteSource.next, final, if_false] at read
        have shorter := unread_length_lt_of_unpackGroups width left _ _ _ _ _ read
        exact Nat.lt_trans shorter (Nat.lt_succ_self _)

/-- A quantity that is read leaves less to read than there was. -/
theorem unread_length_lt_of_unpack {width : Width} {value : Nat} {before after : BufferSource}
    (read : unpack width before = .ok value after) :
    after.unread.length < before.unread.length :=
  unread_length_lt_of_unpackGroups width _ _ _ _ _ _ read

/-! ## Reading all -/

/-- What was read from a buffer, and why reading stopped early if it did. -/
structure Sequence where
  /-- The numbers that were read, in order. -/
  values : List Nat
  /-- The cause that ended reading before the buffer did. -/
  failure : Option StreamError
  deriving DecidableEq, Repr

/-- Reads quantities until the source is used up or one of them cannot be read. -/
def readAll (width : Width) (source : BufferSource) : Sequence :=
  if source.unread.isEmpty then { values := [], failure := none }
  else
    match _read : unpack width source with
    | .error cause _ => { values := [], failure := some cause }
    | .ok value after =>
        let rest := readAll width after
        { rest with values := value :: rest.values }
termination_by source.unread.length
decreasing_by exact unread_length_lt_of_unpack _read

def decodeAll (width : Width) (data : Bytes) : Sequence :=
  readAll width (BufferSource.ofBytes data)

end Septet.Quantity
