import Septet.Toml.Calendar
import Septet.Toml.Name
import Septet.Toml.Nest
import Septet.Toml.Number

/-!
# Values in settings

A value is a text, a truth value, a date or a time, a number, a list or a table
on one line.  The elements of a list stand between brackets, with commas between
them, may run over several lines and may have a comma behind the last one.  The
entries of a table stand between braces on one line, with commas between them,
and none behind the last one.

Within a table on one line, an entry that is a list or a table itself is closed:
no later entry may add to it.

Reading a value descends into its parts.  The descent takes two off the fuel and reads
one character at least, so the fuel of a value is more than twice the number of unread
characters.
-/

namespace Septet.Toml

set_option autoImplicit false

/-- Reads a path, an equals sign and the blanks behind it. -/
def readAssigned (fuel : Nat) : Reader Path := fun unread => do
  let (path, rest) ← readPath fuel unread
  match rest with
  | '=' :: behind => .ok (path, skipSpaces behind)
  | _ => .error ⟨.equalsMissing, rest⟩

/-- Reads a value that is a single word. -/
def readWord : Reader Value := fun unread =>
  match unread with
  | 't' :: 'r' :: 'u' :: 'e' :: rest => .ok (.bool true, rest)
  | 'f' :: 'a' :: 'l' :: 's' :: 'e' :: rest => .ok (.bool false, rest)
  | _ =>
      match readCalendar? unread <|> readNumber? unread with
      | some read => read
      | none => .error ⟨.invalidValue, unread⟩

mutual

def readValue : Nat → Reader Value
  | 0, unread => .error ⟨.invalidValue, unread⟩
  | fuel + 1, unread =>
      match unread with
      | '"' :: behind => do
          let (content, rest) ← readText fuel '"' behind
          .ok (.text content, rest)
      | '\'' :: behind => do
          let (content, rest) ← readText fuel '\'' behind
          .ok (.text content, rest)
      | '[' :: behind => do
          match ← skipBlanks fuel behind with
          | ']' :: rest => .ok (.list [], rest)
          | start => do
              let (items, rest) ← readItems fuel start
              .ok (.list items, rest)
      | '\x7b' :: behind =>
          match skipSpaces behind with
          | '\x7d' :: rest => .ok (.table [], rest)
          | start => do
              let (entries, rest) ← readEntries fuel [] start
              .ok (.table entries.grown, rest)
      | _ => readWord unread

/-- Reads the elements of a list up to the bracket behind them. -/
def readItems : Nat → Reader (List Value)
  | 0, unread => .error ⟨.listNotEnded, unread⟩
  | fuel + 1, unread => do
      let (item, rest) ← readValue fuel unread
      match ← skipBlanks fuel rest with
      | ']' :: after => .ok ([item], after)
      | ',' :: behind => do
          match ← skipBlanks fuel behind with
          | ']' :: after => .ok ([item], after)
          | start => do
              let (items, after) ← readItems fuel start
              .ok (item :: items, after)
      | other => .error ⟨.listNotEnded, other⟩

/-- Reads further entries of a table on one line, up to the brace behind them. -/
def readEntries : Nat → Entries → Reader Entries
  | 0, _, unread => .error ⟨.tableNotEnded, unread⟩
  | fuel + 1, entries, unread => do
      let (path, start) ← readAssigned fuel unread
      let (value, rest) ← readValue fuel start
      let entries ← faultAt rest (insertAt path value entries)
      match skipSpaces rest with
      | '\x7d' :: after => .ok (entries, after)
      | ',' :: behind => readEntries fuel entries (skipSpaces behind)
      | other => .error ⟨.tableNotEnded, other⟩

end

end Septet.Toml
