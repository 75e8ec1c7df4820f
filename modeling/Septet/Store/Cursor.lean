import Septet.Store.Basic

/-!
# Listings read step by step

A listing can be read one element at a time.  Nothing happens before the first
element is asked for; from then on the listing shows the pairs as they were at that
moment, whatever is written afterwards.  It is over after its last element and after
an error, and it cannot go on once the opening that it reads from is over.
-/

namespace Septet

set_option autoImplicit false

/-- How far a listing has been read. -/
inductive Progress where
  /-- Nothing has been asked for. -/
  | fresh
  /-- The remaining pairs, and the opening that they are read from. -/
  | reading (opening : Opening) (rest : List Pair)
  | finished

/-- A listing that is read step by step. -/
structure Cursor where
  aspect : Aspect
  progress : Progress := .fresh

namespace Cursor

/-- What comes next of the remaining pairs, and how far the listing has been read then. -/
def advance (aspect : Aspect) (opening : Opening) :
    List Pair → Except StoreError (Option String) × Progress
  | [] => (.ok none, .finished)
  | pair :: rest =>
      match aspect.show? pair with
      | .ok text => (.ok (some text), .reading opening rest)
      | .error cause => (.error (.record cause), .finished)

/-- The next element of a listing of a store, if there is one. -/
def next (disk : Disk) (store : Store) (cursor : Cursor) :
    Except StoreError (Option String) × Cursor :=
  let (answer, progress) :=
    match cursor.progress with
    | .finished => (.ok none, .finished)
    | .fresh =>
        match store.opening with
        | none => (.error .notOpen, .finished)
        | some opening => advance cursor.aspect opening (disk.contents opening.location).pairs
    | .reading opening rest =>
        if disk.isHeldBy opening then advance cursor.aspect opening rest
        else (.error .listingClosed, .finished)
  (answer, { cursor with progress })

end Cursor

end Septet
