import Septet.Value.Basic

/-!
# Settings

The settings of a store are a table of values, tables among them.  A setting is
found by its key, whose parts, separated by dots, name the tables on the way to
it and the setting itself.  A key that leads nowhere gives the default, and so
does one that leads through something that is no table.
-/

namespace Septet

set_option autoImplicit false

/-- The settings of a store. -/
structure Settings where
  table : Table := []
  deriving Repr

namespace Settings

/-- The parts of a text between its dots. -/
def partsOf : List Char → List (List Char)
  | [] => [[]]
  | character :: rest =>
      if character = '.' then [] :: partsOf rest
      else
        match partsOf rest with
        | [] => [[character]]
        | part :: parts => (character :: part) :: parts

/-- The names of the tables on the way to a setting, and of the setting. -/
def pathOf (key : String) : List String :=
  (partsOf key.toList).map String.ofList

/-- What a path of names leads to. -/
def follow : List String → Value → Option Value
  | [], value => some value
  | name :: rest, .table entries => (entries.lookup name).bind (follow rest)
  | _ :: _, _ => none

/-- The setting with a key, if there is one. -/
def get? (settings : Settings) (key : String) : Option Value :=
  follow (pathOf key) (.table settings.table)

/-- The setting with a key, or the default. -/
def get (settings : Settings) (key : String) (default : Value) : Value :=
  (settings.get? key).getD default

end Settings

end Septet
