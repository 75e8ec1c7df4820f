import Septet.Toml.Fault
import Septet.Value.Basic

/-!
# Tables that grow

While a document is read, its tables grow: an entry is added to a table, a table
comes into being within a table, a table is added to a list of tables.  Whatever
else an entry holds is a value that was assigned and stays as it is; a list or a
table that was assigned as a whole is closed, and nothing is added to it.

A path leads from a table through the tables within it.  A list of tables leads
on into its last table, and a table that is missing comes into being.  A value is
in the way.

A document is divided into sections by its headers.  A table counts as declared
from a section on: from its own, if a header declares it, and from the next one,
if it lies on the way of an assignment.  A list of tables always counts as declared.

What was added last is what a document adds to next, so it is kept in front, and
everything is put in order when the document has been read.
-/

namespace Septet.Toml

set_option autoImplicit false

/-! ## Growing tables -/

/-- What stands at a name in a table that grows. -/
inductive Node where
  /-- A value that was assigned. -/
  | value (content : Value)
  /-- A table, the entry that was added last first, and the section from which it is declared. -/
  | table (declaredFrom : Option Nat) (entries : List (String × Node))
  /-- A list of tables: the entries of the last table, and those of the tables before it. -/
  | tables (last : List (String × Node)) (earlier : List (List (String × Node)))

/-- The entries of a table that grows; the one that was added last is the first. -/
abbrev Entries := List (String × Node)

mutual

/-- The value that has grown. -/
def Node.grown : Node → Value
  | .value content => content
  | .table _ entries => .table (grownEntries entries [])
  | .tables last earlier => .list (grownTables earlier [.table (grownEntries last [])])

/-- The table that has grown, in front of other entries. -/
def grownEntries : Entries → Table → Table
  | [], later => later
  | (name, node) :: entries, later => grownEntries entries ((name, node.grown) :: later)

/-- The tables that have grown, in front of other values. -/
def grownTables : List Entries → List Value → List Value
  | [], later => later
  | entries :: earlier, later => grownTables earlier (.table (grownEntries entries []) :: later)

end

/-- The table that has grown. -/
def Entries.grown (entries : Entries) : Table :=
  grownEntries entries []

/-- Whether a value is a list or a table. -/
def isCompound : Value → Bool
  | .list _ => true
  | .table _ => true
  | _ => false

/-! ## Following a path -/

/-- Entries with another node at a name that they have. -/
def replaceEntry (name : String) (node : Node) : Entries → Entries
  | [] => []
  | (other, held) :: rest =>
      if other = name then (name, node) :: rest
      else (other, held) :: replaceEntry name node rest

/-- Changes what stands at a name, or adds what is to stand there. -/
def changeEntry (name : String) (change : Option Node → Except Cause Node) (entries : Entries) :
    Except Cause Entries :=
  match entries.lookup name with
  | none => (change none).map fun node => (name, node) :: entries
  | some held => (change (some held)).map fun node => replaceEntry name node entries

/-- The cause of failure when a value is in the way; `closed` is the cause if it is a closed one. -/
def obstacle (closed : Cause) (content : Value) : Cause :=
  if isCompound content then closed else .valueInTheWay

/-- Changes the table that a path leads to. -/
def changeAt (closed : Cause) (change : Entries → Except Cause Entries) :
    Path → Entries → Except Cause Entries
  | [], entries => change entries
  | name :: path, entries =>
      changeEntry name (fun
        | none => (changeAt closed change path []).map (.table none)
        | some (.table since inner) => (changeAt closed change path inner).map (.table since)
        | some (.tables last earlier) =>
            (changeAt closed change path last).map fun changed => .tables changed earlier
        | some (.value content) => .error (obstacle closed content)) entries

/-- Changes what stands at the end of a path, or adds what is to stand there. -/
def changeEnd (closed : Cause) (change : Option Node → Except Cause Node) (path : Path)
    (entries : Entries) : Except Cause Entries :=
  match path.getLast? with
  | none => .ok entries
  | some name => changeAt closed (changeEntry name change) path.dropLast entries

/-! ## Growth by headers and assignments -/

/-- Whether a table counts as declared in the current section. -/
def isDeclared (current : Nat) : Option Nat → Bool
  | none => false
  | some since => since ≤ current

/-- Declares the table of a path by the header of the current section. -/
def declareAt (current : Nat) (path : Path) : Entries → Except Cause Entries :=
  let repeated : Cause := .repeatedTable path
  changeEnd repeated (fun
    | none => .ok (.table (some current) [])
    | some (.table since entries) =>
        if isDeclared current since then .error repeated
        else .ok (.table (some current) entries)
    | some (.tables _ _) => .error repeated
    | some (.value content) => .error (obstacle repeated content)) path

/-- Adds an empty table to the end of the list of a path, which comes into being if it is missing. -/
def extendAt (path : Path) : Entries → Except Cause Entries :=
  changeEnd (.closedTable path) (fun
    | none => .ok (.tables [] [])
    | some (.tables last earlier) => .ok (.tables [] (last :: earlier))
    | some (.table _ _) => .error .valueInTheWay
    | some (.value content) => .error (obstacle (.closedTable path) content)) path

/-- Adds a value at the end of a path below the table of the current section; the names before the
path are given with the last one first. -/
def assignBelow (current : Nat) (value : Value) (closed : Cause) :
    Path → Path → Entries → Except Cause Entries
  | _, [], entries => .ok entries
  | _, [name], entries =>
      changeEntry name (fun
        | none => .ok (.value value)
        | some _ => .error .valueInTheWay) entries
  | before, name :: path, entries =>
      let below := assignBelow current value closed (name :: before) path
      changeEntry name (fun
        | none => (below []).map (.table (some (current + 1)))
        | some (.table since inner) =>
            if isDeclared current since then .error (.reopenedTable (name :: before).reverse)
            else (below inner).map (.table (some (current + 1)))
        | some (.tables _ _) => .error (.reopenedTable (name :: before).reverse)
        | some (.value content) => .error (obstacle closed content)) entries

/-- Adds a value at the end of a path below the table of a header, that of the current section. -/
def assignAt (current : Nat) (header path : Path) (value : Value) :
    Entries → Except Cause Entries :=
  let closed : Cause := .closedTable (header ++ path.dropLast)
  changeAt closed (assignBelow current value closed header.reverse path) header

/-- Adds a value at the end of a path to a table on one line. -/
def insertAt (path : Path) (value : Value) : Entries → Except Cause Entries :=
  let closed : Cause := .closedTable path
  let repeated : Cause := .repeatedName (path.getLast?.getD "")
  changeEnd closed (fun
    | none => .ok (.value value)
    | some (.value content) => .error (if isCompound content then closed else repeated)
    | some _ => .error repeated) path

/-- The cause of a change that fails, with what is unread. -/
def faultAt (unread : List Char) (outcome : Except Cause Entries) : Except Fault Entries :=
  outcome.mapError fun cause => ⟨cause, unread⟩

end Septet.Toml
