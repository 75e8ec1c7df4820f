/-!
# Widths

A variable-length quantity is written for one of two widths.  The width fixes
the modulus that integers are reduced by and the number of seven-bit groups,
hence of bytes, that a written quantity can have at most.
-/

namespace Septet

set_option autoImplicit false

/-- The integer width that a quantity is written for. -/
inductive Width where
  | bits32
  | bits64
  deriving DecidableEq, Repr, Inhabited

namespace Width

def bits : Width → Nat
  | bits32 => 32
  | bits64 => 64

/-- The number of integers that a width tells apart. -/
def modulus (width : Width) : Nat :=
  Nat.pow 2 width.bits

/-- The greatest number of bytes of a quantity: enough groups of seven bits for the width. -/
def maxBytes : Width → Nat
  | bits32 => 5
  | bits64 => 10

/-- A number of bits that no width has. -/
structure Unsupported where
  /-- The number of bits that was asked for. -/
  bits : Int
  deriving DecidableEq, Repr

/-- The text for a number of bits that no width has. -/
def Unsupported.message (unsupported : Unsupported) : String :=
  s!"Unsupported integer width: {unsupported.bits} (expected 32 or 64)"

/-- The width that has the given number of bits. -/
def ofBits (bits : Int) : Except Unsupported Width :=
  if bits = 32 then .ok bits32 else if bits = 64 then .ok bits64 else .error { bits }

/-- The natural number below the modulus that an integer is congruent to. -/
def reduce (width : Width) (value : Int) : Nat :=
  (value % (width.modulus : Int)).toNat

theorem modulus_pos (width : Width) : 0 < width.modulus := by
  cases width <;> decide

theorem reduce_lt (width : Width) (value : Int) : width.reduce value < width.modulus := by
  have positive : (0 : Int) < width.modulus := by exact_mod_cast width.modulus_pos
  have below := Int.emod_lt_of_pos value positive
  have nonnegative := Int.emod_nonneg value (Int.ne_of_gt positive)
  unfold reduce
  omega

end Width

end Septet
