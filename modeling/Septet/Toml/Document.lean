import Septet.Toml.Value

/-!
# Settings documents

A document is a sequence of lines, each of which may hold a statement and a
comment.  A statement assigns a value to a path below the current table, or makes
another table the current one: the table of a path, which is declared by it, or a
new table at the end of the list of a path.

The tables of a document grow by the rules for headers and assignments: a table is
declared by one header, a list or a table that is assigned as a whole is closed, and
a table that lies on the way of an assignment counts as declared from the next header
on.
-/

namespace Septet.Toml

set_option autoImplicit false

/-! ## What has been read -/

/-- What has been read of a document. -/
structure Draft where
  entries : Entries := []
  /-- The path of the current table. -/
  header : Path := []
  /-- The number of headers. -/
  headers : Nat := 0

/-! ## Statements -/

/-- Reads the rest of the header of a table. -/
def readHeader (fuel : Nat) (draft : Draft) : Reader Draft := fun unread => do
  let (path, rest) ← readPath fuel (skipSpaces unread)
  let headers := draft.headers + 1
  let entries ← faultAt rest (declareAt headers path draft.entries)
  match rest with
  | ']' :: after => .ok ({ entries, header := path, headers }, after)
  | _ => .error ⟨.headerNotEnded, rest⟩

/-- Reads the rest of the header of a new table in a list. -/
def readListHeader (fuel : Nat) (draft : Draft) : Reader Draft := fun unread => do
  let (path, rest) ← readPath fuel (skipSpaces unread)
  let entries ← faultAt rest (extendAt path draft.entries)
  match rest with
  | ']' :: ']' :: after =>
      .ok ({ entries, header := path, headers := draft.headers + 1 }, after)
  | _ => .error ⟨.listHeaderNotEnded, rest⟩

def readAssignment (fuel : Nat) (draft : Draft) : Reader Draft := fun unread => do
  let (path, start) ← readAssigned fuel unread
  let (value, rest) ← readValue (2 * fuel + 1) start
  let entries ← faultAt rest (assignAt draft.headers draft.header path value draft.entries)
  .ok ({ draft with entries }, rest)

/-- Reads a statement, if one begins here. -/
def readStatement (fuel : Nat) (draft : Draft) : Reader Draft := fun unread =>
  match unread with
  | [] => .ok (draft, unread)
  | '#' :: _ => .ok (draft, unread)
  | '[' :: '[' :: rest => readListHeader fuel draft rest
  | '[' :: rest => readHeader fuel draft rest
  | first :: _ =>
      if beginsName first then readAssignment fuel draft unread
      else .error ⟨.invalidStatement, unread⟩

/-! ## Documents -/

/-- Reads lines to the end of the document, but no more than `fuel`. -/
def readLinesOf : Nat → Draft → List Char → Except Fault Table
  | 0, draft, _ => .ok draft.entries.grown
  | fuel + 1, draft, unread =>
      match skipSpaces unread with
      | [] => .ok draft.entries.grown
      | '\n' :: rest => readLinesOf fuel draft rest
      | start => do
          let (draft, rest) ← readStatement (fuel + 1) draft start
          match ← skipComment (skipSpaces rest) with
          | [] => .ok draft.entries.grown
          | '\n' :: behind => readLinesOf fuel draft behind
          | other => .error ⟨.lineNotEnded, other⟩

/-- A document with a line feed alone for every line end. -/
def unifyLineEnds : List Char → List Char
  | '\r' :: '\n' :: rest => '\n' :: unifyLineEnds rest
  | character :: rest => character :: unifyLineEnds rest
  | [] => []

def read (text : String) : Except Error Table :=
  let document := unifyLineEnds text.toList
  (readLinesOf (document.length + 1) {} document).mapError fun fault => fault.report document

end Septet.Toml
