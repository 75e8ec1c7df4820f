/-!
# Byte strings

Everything that is written, read, stored or compared here is a list of bytes.
Lists keep the recursion of every reader and writer on the data itself.  The
order of keys is the lexicographic order of lists, byte by byte and unsigned,
with a proper initial part before what continues it.
-/

namespace Septet

set_option autoImplicit false

/-- A string of bytes. -/
abbrev Bytes := List UInt8

end Septet
