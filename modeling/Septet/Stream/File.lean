import Septet.Stream.Basic

/-!
# Files

A file has one position, shared by what writes and what reads it.  A write
overwrites the byte at the position, or extends the file when the position is at
its end; a position beyond the end is first reached with zeros.

A file may have a budget: the number of bytes of traffic, written or asked for,
that it allows in all.  An attempt without budget left fails and changes
nothing; an attempt to read at the end of the file costs its byte all the same.
-/

namespace Septet

set_option autoImplicit false

/-- A file with a position and, possibly, a limit on its traffic. -/
structure ByteFile where
  content : Bytes := []
  /-- Where the next byte is written or read. -/
  position : Nat := 0
  /-- How many one-byte transfers are still allowed, if there is a limit. -/
  budget : Option Nat := none
  deriving DecidableEq, Repr

namespace ByteFile

/-- The content after one byte has been written at a position. -/
def overwrite (content : Bytes) (position : Nat) (byte : UInt8) : Bytes :=
  content.take position ++ List.replicate (position - content.length) 0 ++
    byte :: content.drop (position + 1)

/-- Takes one transfer from the budget, or fails with the given cause. -/
def spend (cause : StreamError) : StreamM ByteFile Unit := fun file =>
  match file.budget with
  | none => .ok () file
  | some 0 => .error cause file
  | some (left + 1) => .ok () { file with budget := some left }

def seek (target : Int) : StreamM ByteFile Unit :=
  if 0 ≤ target then modify fun file => { file with position := target.toNat }
  else throw (.negativeSeek target)

/-- Writes one byte at the position and moves past it. -/
def put (byte : UInt8) : StreamM ByteFile Unit := do
  spend .diskFull
  modify fun file =>
    { file with content := overwrite file.content file.position byte, position := file.position + 1 }

/-- Reads the byte at the position and moves past it. -/
def next : StreamM ByteFile UInt8 := do
  spend .deviceNotReady
  let file ← get
  match file.content[file.position]? with
  | none => throw .fileExhausted
  | some byte =>
      set { file with position := file.position + 1 }
      pure byte

end ByteFile

instance : ByteSink ByteFile where
  medium := .file
  put := ByteFile.put

instance : ByteSource ByteFile where
  next := ByteFile.next

end Septet
