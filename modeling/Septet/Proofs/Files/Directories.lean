import Septet.Files.System
import Septet.Proofs.Running

/-!
# Making directories

Directories are made at the end of a path and, if they are missing, on the way to it.
When this succeeds, the path leads to a directory (`FileM.hasDirectory_of_makeDirectories`),
since whatever was followed before can be followed still (`FileSystem.walk_setDirectory`).
Where a path leads to a directory already, nothing is made (`FileM.makeDirectories_of_hasDirectory`).
So directories that have been made once can be asked for as often as one likes.
-/

set_option autoImplicit false

namespace Septet

namespace FileSystem

variable {files : FileSystem} {path : Path}

/-- A path leads to a directory. -/
def HasDirectory (files : FileSystem) (path : Path) : Prop :=
  files.find path = .ok (some .directory)

theorem locate_eq_ok_iff {location : Location} :
    files.locate path = .ok location ↔ files.follow path = .ok location := by
  rw [locate]
  cases files.follow path with
  | ok found => exact ⟨fun same => by cases same; rfl, fun same => by cases same; rfl⟩
  | error problem => exact iff_of_false (fun same => by cases same) (fun same => by cases same)

theorem hasDirectory_iff : files.HasDirectory path ↔
    ∃ location, files.locate path = .ok location ∧ files.node? location = some .directory := by
  simp only [HasDirectory, find, locate_eq_ok_iff]
  cases files.follow path with
  | ok location => simp
  | error problem => cases problem <;> simp

/-! ## One more directory -/

/-- A directory stays one when another is made. -/
theorem node?_setDirectory (place : Location) {location : Location}
    (directory : files.node? location = some .directory) :
    (files.set place .directory).node? location = some .directory := by
  have others : ∀ nodes : List (Location × Node), location ≠ place →
      (nodes.filter fun entry => entry.1 != place).lookup location = nodes.lookup location := by
    intro nodes apart
    induction nodes with
    | nil => rfl
    | cons entry nodes ih =>
        obtain ⟨there, node⟩ := entry
        by_cases same : there = place
        · subst same
          rw [List.filter_cons_of_neg (by simp), ih, List.lookup_cons, beq_false_of_ne apart]
        · rw [List.filter_cons_of_pos (by simpa using same), List.lookup_cons, List.lookup_cons, ih]
  unfold node? at directory ⊢
  split
  · rfl
  · next below =>
      rw [if_neg below] at directory
      by_cases same : location = place
      · rw [set, same, List.lookup_cons_self]
      · rw [set, List.lookup_cons, beq_false_of_ne same, others _ same]
        exact directory

/-- Names that lead somewhere still lead there when a directory is made. -/
theorem walk_setDirectory (place : Location) (names : List String) :
    ∀ {location reached : Location}, files.walk location names = .ok reached →
      (files.set place .directory).walk location names = .ok reached := by
  induction names with
  | nil => exact id
  | cons name rest ih =>
      intro location reached walked
      rw [walk] at walked
      split at walked
      · cases walked
      · cases walked
      · next directory =>
          rw [walk, node?_setDirectory place directory]
          dsimp only
          split at walked
          · next back =>
              rw [if_pos back]
              exact ih walked
          · next onwards =>
              rw [if_neg onwards]
              split at walked
              · cases walked
              · next short =>
                  rw [if_neg short]
                  exact ih walked

theorem locate_setDirectory (place : Location) {location : Location}
    (located : files.locate path = .ok location) :
    (files.set place .directory).locate path = .ok location := by
  rw [locate_eq_ok_iff] at located ⊢
  unfold follow at located ⊢
  split at located
  · cases located
  · next text =>
      rw [if_neg text]
      split at located
      · cases located
      · next short =>
          rw [if_neg short]
          cases start : path.start <;> rw [start] at located <;>
            exact walk_setDirectory place path.names located

end FileSystem

/-! ## Making directories -/

namespace FileM

variable {files after : FileSystem} {path : Path}

section Asking

variable {α : Type} {question : FileSystem → Except FileError α}

theorem ask_ok {answer : α} (answered : question files = .ok answer) :
    ask question files = .ok answer files := by
  rw [ask, answered]

theorem ask_error {error : FileError} (failed : question files = .error error) :
    ask question files = .error error files := by
  rw [ask, failed]

end Asking

/-- A directory is made at a location where nothing is, and only there. -/
theorem makeOnly_run (path : Path) (files : FileSystem) :
    makeOnly path files =
      match files.locate path with
      | .error error => .error error files
      | .ok location =>
          match files.node? location with
          | some _ => .error ⟨.existing, path.text⟩ files
          | none => .ok () (files.set location .directory) := by
  cases located : files.locate path with
  | error error => rw [makeOnly, EStateM.bind_error (ask_error located)]
  | ok location =>
      rw [makeOnly, EStateM.bind_ok (ask_ok located), EStateM.get_bind]
      dsimp only
      cases files.node? location <;> rfl

/-- Where a path leads to a directory, none is made. -/
theorem makeOne_of_hasDirectory (there : files.HasDirectory path) :
    makeOne path files = .ok () files := by
  obtain ⟨location, located, directory⟩ := FileSystem.hasDirectory_iff.mp there
  have existing : makeOnly path files = .error ⟨.existing, path.text⟩ files := by
    rw [makeOnly_run, located]
    dsimp only
    rw [directory]
  have looked : ask (fun files => files.find path) files = .ok (some .directory) files :=
    ask_ok there
  rw [makeOne, EStateM.tryCatch_error existing]
  exact EStateM.bind_ok looked

/-- A directory that has been made, or was there, is where the path leads. -/
theorem hasDirectory_of_makeOne (made : makeOne path files = .ok () after) :
    after.HasDirectory path := by
  cases only : makeOnly path files with
  | ok value between =>
      rw [makeOne, EStateM.tryCatch_ok only] at made
      cases made
      rw [makeOnly_run] at only
      split at only
      · cases only
      · next location located =>
          split at only
          · cases only
          · cases only
            refine FileSystem.hasDirectory_iff.mpr
              ⟨location, FileSystem.locate_setDirectory location located, ?_⟩
            rw [FileSystem.node?]
            split
            · rfl
            · exact List.lookup_cons_self
  | error error between =>
      rw [makeOne, EStateM.tryCatch_error only] at made
      cases problem : error.problem with
      | existing =>
          rw [problem] at made
          dsimp only at made
          cases found : between.find path with
          | error cause =>
              rw [EStateM.bind_error (ask_error found)] at made
              cases made
          | ok node =>
              rw [EStateM.bind_ok (ask_ok found)] at made
              rcases node with _ | _ | content
              · cases made
              · cases made
                exact found
              · cases made
      | _ =>
          rw [problem] at made
          cases made

theorem makeWithin_of_hasDirectory (there : files.HasDirectory path) :
    ∀ depth, makeWithin depth path files = .ok () files
  | 0 => makeOne_of_hasDirectory there
  | depth + 1 => by
      rw [makeWithin, EStateM.tryCatch_ok (makeOne_of_hasDirectory there)]

theorem hasDirectory_of_makeWithin : ∀ depth, makeWithin depth path files = .ok () after →
    after.HasDirectory path
  | 0, made => hasDirectory_of_makeOne made
  | depth + 1, made => by
      rw [makeWithin] at made
      cases one : makeOne path files with
      | ok value between =>
          rw [EStateM.tryCatch_ok one] at made
          cases made
          exact hasDirectory_of_makeOne one
      | error error between =>
          rw [EStateM.tryCatch_error one] at made
          cases problem : error.problem with
          | missing =>
              rw [problem] at made
              dsimp only at made
              split at made
              · cases made
              · -- the directories on the way are made, and then this one
                cases way : makeWithin depth path.parent between with
                | error cause later =>
                    rw [EStateM.bind_error way] at made
                    cases made
                | ok value later =>
                    rw [EStateM.bind_ok way] at made
                    exact hasDirectory_of_makeOne made
          | _ =>
              rw [problem] at made
              cases made

/-- **A path leads to a directory once the directory has been made** with those on the way to it. -/
theorem hasDirectory_of_makeDirectories (made : makeDirectories path files = .ok () after) :
    after.HasDirectory path :=
  hasDirectory_of_makeWithin _ made

/-- **Where a path leads to a directory, nothing is made.** -/
theorem makeDirectories_of_hasDirectory (there : files.HasDirectory path) :
    makeDirectories path files = .ok () files :=
  makeWithin_of_hasDirectory there _

end FileM

end Septet
