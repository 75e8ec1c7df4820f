import Mathlib.Data.List.Forall2
import Septet.Proofs.Quantity.Spelling
import Septet.Proofs.Store.Session
import Septet.Store.Cursor

/-!
# Listings that meet a fault

A database may hold any pairs, also such as no store has written.  A name can be listed of
a pair whose value holds a record, and a line if, besides, the key goes on with a number
behind a hash (`Listed`).  Every other pair is at fault, and its error says what is judged
first: for a line that is the key, and only then the value (`Unlisted`).

A listing shows the pairs in front of the first one at fault and ends with its error, or
shows all pairs where none is at fault (`Listing.exists_front`).  A pair of which a line can
be listed is one of which the name can be, so a listing of lines ends no later than one of
names, and both show the same pairs as far as they go (`Store.lists_until_fault`).

A listing that is read element by element gives the same texts, then the error, and from
then on nothing (`Cursor.answers_fresh`).
-/

set_option autoImplicit false

namespace Septet

open Quantity (Spelling Unspelled)

/-! ## Pairs that can be listed -/

/-- What can be listed of a pair: the name of the record that its value holds, or a line of this record
and of the number that stands in its key behind a hash. -/
inductive Listed : Aspect → Pair → String → Prop where
  | name (key : Bytes) {value : Bytes} {record : Record} (holds : Record.decode value = .ok record) :
      Listed .name (key, value) record.name
  | line {digest : Bytes} (whole : digest.length = 16) (number : Spelling .bits64) (behind : Bytes)
      {value : Bytes} {record : Record} (holds : Record.decode value = .ok record) :
      Listed .line (digest ++ (number.bytes ++ behind), value)
        (Aspect.lineOf (digest ++ (number.bytes ++ behind)) number.value record)

/-- Why something cannot be listed of a pair.  For a line, the value counts only where the key has a
hash and a number. -/
inductive Unlisted : Aspect → Pair → RecordError → Prop where
  | name (key : Bytes) {value : Bytes} {cause : RecordError}
      (refused : Record.decode value = .error cause) : Unlisted .name (key, value) cause
  /-- The key is shorter than a hash. -/
  | digest {key : Bytes} (short : key.length < 16) (value : Bytes) :
      Unlisted .line (key, value) (.quantity (.offsetOutside 16 key.length))
  /-- No number stands in the key behind a hash. -/
  | number {digest : Bytes} (whole : digest.length = 16) {behind : Bytes} {cause : StreamError}
      (unspelled : Unspelled .bits64 16 behind cause) (value : Bytes) :
      Unlisted .line (digest ++ behind, value) (.quantity cause)
  | value {digest : Bytes} (whole : digest.length = 16) (number : Spelling .bits64)
      (behind : Bytes) {value : Bytes} {cause : RecordError}
      (refused : Record.decode value = .error cause) :
      Unlisted .line (digest ++ (number.bytes ++ behind), value) cause

variable {aspect : Aspect} {pair : Pair} {text : String} {cause : RecordError}

/-- Behind a hash, decoding is reading what stands there. -/
theorem decode_behind_digest {digest : Bytes} (whole : digest.length = 16) (behind : Bytes) :
    Quantity.decode .bits64 (digest ++ behind) Aspect.hashLength =
      match Quantity.unpack .bits64 (⟨16, behind⟩ : BufferSource) with
      | .ok value after => .ok ⟨value, after.position - 16⟩
      | .error cause _ => .error cause := by
  have inside : (Aspect.hashLength : Int) ≤ (digest ++ behind).length := by
    rw [List.length_append, whole, Aspect.hashLength]
    omega
  have rest : (digest ++ behind).drop (Int.toNat Aspect.hashLength) = behind :=
    List.drop_left' whole
  rw [Quantity.decode_inside .bits64 (Int.natCast_nonneg _) inside, rest]
  rfl

theorem Listed.show?_eq (listed : Listed aspect pair text) : aspect.show? pair = .ok text := by
  cases listed with
  | name key holds => simp only [Aspect.show?, holds, bind, Except.bind]
  | line whole number behind holds =>
      simp only [Aspect.show?, decode_behind_digest whole, Quantity.unpack_spelling, holds, bind,
        Except.bind]

theorem Unlisted.show?_eq (unlisted : Unlisted aspect pair cause) :
    aspect.show? pair = .error cause := by
  cases unlisted with
  | name key refused => simp only [Aspect.show?, refused, bind, Except.bind]
  | @digest key short value =>
      have outside : (key.length : Int) < Aspect.hashLength := Int.ofNat_lt.mpr short
      have refused := Quantity.decode_outside .bits64 (.inr outside)
      simp only [Aspect.show?, refused]
      rfl
  | number whole unspelled value =>
      obtain ⟨after, refused⟩ := Quantity.unpack_unspelled unspelled
      simp only [Aspect.show?, decode_behind_digest whole, refused]
  | value whole number behind refused =>
      simp only [Aspect.show?, decode_behind_digest whole, Quantity.unpack_spelling, refused, bind,
        Except.bind]

/-- **Something can be listed of a pair, or there is a reason against it.** -/
theorem listed_or_unlisted (aspect : Aspect) (pair : Pair) :
    (∃ text, Listed aspect pair text) ∨ ∃ cause, Unlisted aspect pair cause := by
  obtain ⟨key, value⟩ := pair
  cases aspect with
  | name =>
      cases held : Record.decode value with
      | ok record => exact .inl ⟨_, .name key held⟩
      | error cause => exact .inr ⟨_, .name key held⟩
  | line =>
      by_cases short : key.length < 16
      · exact .inr ⟨_, .digest short value⟩
      · have whole : (key.take 16).length = 16 := List.length_take_of_le (Nat.le_of_not_lt short)
        rw [← List.take_append_drop 16 key]
        rcases Quantity.spelled_or_unspelled .bits64 16 (key.drop 16) with
          ⟨number, behind, split⟩ | ⟨cause, unspelled⟩
        · rw [split]
          cases held : Record.decode value with
          | ok record => exact .inl ⟨_, .line whole number behind held⟩
          | error cause => exact .inr ⟨_, .value whole number behind held⟩
        · exact .inr ⟨_, .number whole unspelled value⟩

/-- A pair of which a line can be listed holds a record, whose name can be listed. -/
theorem Listed.exists_name (listed : Listed .line pair text) : ∃ name, Listed .name pair name := by
  cases listed with
  | line whole number behind holds => exact ⟨_, .name _ holds⟩

/-- A name can be listed of the pairs whose values hold a record. -/
theorem exists_listed_name_iff :
    (∃ name, Listed .name pair name) ↔ ∃ record, Record.decode pair.2 = .ok record := by
  constructor
  · rintro ⟨name, listed⟩
    cases listed with
    | name key holds => exact ⟨_, holds⟩
  · rintro ⟨record, holds⟩
    exact ⟨record.name, .name pair.1 holds⟩

/-! ## Where a listing ends -/

/-- How a listing ends at the pairs that are left: with the error of the first, if there is one. -/
inductive EndsAt (aspect : Aspect) : List Pair → Option RecordError → Prop where
  | all : EndsAt aspect [] none
  | fault {pair : Pair} (rest : List Pair) {cause : RecordError}
      (unlisted : Unlisted aspect pair cause) : EndsAt aspect (pair :: rest) (some cause)

namespace Listing

/-- **A listing shows the pairs in front of the first one at fault.** -/
theorem exists_front (aspect : Aspect) (pairs : List Pair) :
    ∃ front rest, pairs = front ++ rest ∧
      List.Forall₂ (Listed aspect) front (ofPairs aspect pairs).shown ∧
      EndsAt aspect rest (ofPairs aspect pairs).failure := by
  induction pairs with
  | nil => exact ⟨[], [], rfl, .nil, .all⟩
  | cons pair pairs ih =>
      rcases listed_or_unlisted aspect pair with ⟨text, listed⟩ | ⟨cause, unlisted⟩
      · obtain ⟨front, rest, split, shown, ends⟩ := ih
        refine ⟨pair :: front, rest, by rw [split, List.cons_append], ?_, ?_⟩
        · simp only [ofPairs, listed.show?_eq]
          exact .cons listed shown
        · simp only [ofPairs, listed.show?_eq]
          exact ends
      · refine ⟨[], pair :: pairs, rfl, ?_, ?_⟩
        · simp only [ofPairs, unlisted.show?_eq]
          exact .nil
        · simp only [ofPairs, unlisted.show?_eq]
          exact .fault pairs unlisted

/-- A listing ends without an error if something can be listed of every pair. -/
theorem failure_eq_none_iff (aspect : Aspect) (pairs : List Pair) :
    (ofPairs aspect pairs).failure = none ↔ ∀ pair ∈ pairs, ∃ text, Listed aspect pair text := by
  induction pairs with
  | nil => exact iff_of_true rfl fun _ member => absurd member List.not_mem_nil
  | cons pair pairs ih =>
      rw [List.forall_mem_cons, ← ih]
      rcases listed_or_unlisted aspect pair with ⟨text, listed⟩ | ⟨cause, unlisted⟩
      · simp only [ofPairs, listed.show?_eq]
        exact ⟨fun ended => ⟨⟨text, listed⟩, ended⟩, And.right⟩
      · simp only [ofPairs, unlisted.show?_eq]
        refine iff_of_false (by simp) fun ⟨⟨text, listed⟩, _⟩ => ?_
        cases listed.show?_eq.symm.trans unlisted.show?_eq

/-- A listing of lines shows pairs that one of names shows too, which may go on behind them. -/
theorem exists_fronts (pairs : List Pair) :
    ∃ filed more rest, pairs = filed ++ more ++ rest ∧
      List.Forall₂ (Listed .line) filed (ofPairs .line pairs).shown ∧
      EndsAt .line (more ++ rest) (ofPairs .line pairs).failure ∧
      List.Forall₂ (Listed .name) (filed ++ more) (ofPairs .name pairs).shown ∧
      EndsAt .name rest (ofPairs .name pairs).failure := by
  induction pairs with
  | nil => exact ⟨[], [], [], rfl, .nil, .all, .nil, .all⟩
  | cons pair pairs ih =>
      rcases listed_or_unlisted .line pair with ⟨line, listed⟩ | ⟨cause, unlisted⟩
      · obtain ⟨name, named⟩ := listed.exists_name
        obtain ⟨filed, more, rest, split, lines, endsLine, names, endsName⟩ := ih
        refine ⟨pair :: filed, more, rest, by rw [split]; rfl, ?_⟩
        simp only [ofPairs, listed.show?_eq, named.show?_eq]
        exact ⟨.cons listed lines, endsLine, .cons named names, endsName⟩
      · -- the lines end here, and the names go on as far as they go by themselves
        obtain ⟨front, rest, split, names, endsName⟩ := exists_front .name (pair :: pairs)
        refine ⟨[], front, rest, split, ?_, ?_, names, endsName⟩
        · simp only [ofPairs, unlisted.show?_eq]
          exact .nil
        · rw [← split]
          simp only [ofPairs, unlisted.show?_eq]
          exact .fault pairs unlisted

/-! ## Reading element by element -/

/-- What a listing answers when an element is asked for: the text at this place, behind the last one
the error if there is one, and else that nothing is left. -/
def answer (listing : Listing) (index : Nat) : Except StoreError (Option String) :=
  match listing.shown[index]?, listing.failure with
  | some text, _ => .ok (some text)
  | none, some cause =>
      if index = listing.shown.length then .error (.record cause) else .ok none
  | none, none => .ok none

theorem answer_nil (index : Nat) : (ofPairs aspect []).answer index = .ok none := rfl

theorem answer_listed (listed : Listed aspect pair text) (pairs : List Pair) :
    (ofPairs aspect (pair :: pairs)).answer 0 = .ok (some text) ∧
      ∀ index, (ofPairs aspect (pair :: pairs)).answer (index + 1) =
        (ofPairs aspect pairs).answer index := by
  simp only [ofPairs, listed.show?_eq]
  refine ⟨rfl, fun index => ?_⟩
  simp only [answer, List.getElem?_cons_succ, List.length_cons, Nat.add_right_cancel_iff]

theorem answer_unlisted (unlisted : Unlisted aspect pair cause) (pairs : List Pair) :
    (ofPairs aspect (pair :: pairs)).answer 0 = .error (.record cause) ∧
      ∀ index, (ofPairs aspect (pair :: pairs)).answer (index + 1) = .ok none := by
  simp only [ofPairs, unlisted.show?_eq]
  exact ⟨rfl, fun _ => rfl⟩

end Listing

namespace Cursor

/-- The answers to a number of requests for the next element, one after the other. -/
def answers (disk : Disk) (store : Store) : Nat → Cursor → List (Except StoreError (Option String))
  | 0, _ => []
  | count + 1, cursor =>
      (cursor.next disk store).1 :: answers disk store count (cursor.next disk store).2

variable {disk : Disk} {store : Store} {opening : Opening}

/-- A listing that is over has nothing more to show. -/
theorem answers_finished (count : Nat) :
    answers disk store count { aspect, progress := .finished } =
      List.replicate count (.ok none) := by
  induction count with
  | zero => rfl
  | succ count ih => rw [answers, List.replicate_succ, ← ih]; rfl

/-- **A listing that is read while its opening holds the database answers as the whole does.** -/
theorem answers_reading (held : disk.isHeldBy opening = true) (count : Nat) (pairs : List Pair) :
    answers disk store count { aspect, progress := .reading opening pairs } =
      (List.range count).map (Listing.ofPairs aspect pairs).answer := by
  have ended (count : Nat) :
      List.replicate count (.ok none : Except StoreError (Option String)) =
        (List.range count).map fun _ => .ok none := by
    rw [List.map_const', List.length_range]
  induction count generalizing pairs with
  | zero => rfl
  | succ count ih =>
      have next : ({ aspect, progress := .reading opening pairs } : Cursor).next disk store =
          ((advance aspect opening pairs).1,
            { aspect, progress := (advance aspect opening pairs).2 }) := by
        simp only [Cursor.next, held, if_true]
      rw [answers, next, List.range_succ_eq_map, List.map_cons, List.map_map]
      cases pairs with
      | nil =>
          simp only [advance, answers_finished, ended, Listing.answer_nil, Function.comp_def]
      | cons pair pairs =>
          rcases listed_or_unlisted aspect pair with ⟨text, listed⟩ | ⟨cause, unlisted⟩
          · obtain ⟨first, others⟩ := Listing.answer_listed listed pairs
            simp only [advance, listed.show?_eq, ih, first, others, Function.comp_def]
          · obtain ⟨first, others⟩ := Listing.answer_unlisted unlisted pairs
            simp only [advance, unlisted.show?_eq, answers_finished, ended, first, others,
              Function.comp_def]

/-- A listing that has not been read yet shows what there is when it is. -/
theorem answers_fresh (opened : store.opening = some opening)
    (held : disk.isHeldBy opening = true) (aspect : Aspect) (count : Nat) :
    answers disk store count { aspect } =
      (List.range count).map ((disk.contents opening.location).list aspect).answer := by
  have started : ({ aspect } : Cursor).next disk store =
      ({ aspect, progress := .reading opening (disk.contents opening.location).pairs } :
        Cursor).next disk store := by
    simp only [Cursor.next, opened, held, if_true]
  have whole : answers disk store count
      { aspect, progress := .reading opening (disk.contents opening.location).pairs } = _ :=
    answers_reading held count _
  rw [Database.list, ← whole]
  cases count with
  | zero => rfl
  | succ count => rw [answers, answers, started]

end Cursor

/-! ## Listings of a store -/

namespace Store

variable {session : Session} {opening : Opening}

/-- **A store lists what it holds up to the first pair at fault**, whatever pairs these are.  Names end
at a value that holds no record, and lines already at a key without a hash or without a number behind
it; so there are no more lines than names, and as far as they go both are of the same pairs.  Read
element by element, a listing gives the same and is over after its error. -/
theorem lists_until_fault (ready : session.Ready opening) :
    ∃ names lines : Listing,
      list .name session = .ok names session ∧ list .line session = .ok lines session ∧
      (∃ filed more rest, (session.database opening).pairs = filed ++ more ++ rest ∧
        List.Forall₂ (Listed .line) filed lines.shown ∧
        EndsAt .line (more ++ rest) lines.failure ∧
        List.Forall₂ (Listed .name) (filed ++ more) names.shown ∧
        EndsAt .name rest names.failure) ∧
      (names.failure = none ↔
        ∀ pair ∈ (session.database opening).pairs, ∃ record, Record.decode pair.2 = .ok record) ∧
      lines.shown.length ≤ names.shown.length ∧
      ∀ count,
        Cursor.answers session.disk session.store count { aspect := .name } =
            (List.range count).map names.answer ∧
          Cursor.answers session.disk session.store count { aspect := .line } =
            (List.range count).map lines.answer := by
  refine ⟨_, _, list_run ready .name, list_run ready .line, ?_⟩
  obtain ⟨filed, more, rest, split, lines, endsLine, names, endsName⟩ :=
    Listing.exists_fronts (session.database opening).pairs
  refine ⟨⟨filed, more, rest, split, lines, endsLine, names, endsName⟩, ?_, ?_, fun count =>
    ⟨Cursor.answers_fresh ready.opened ready.held .name count,
      Cursor.answers_fresh ready.opened ready.held .line count⟩⟩
  · simp only [Database.list, Listing.failure_eq_none_iff, exists_listed_name_iff]
  · calc
      ((session.database opening).list .line).shown.length = filed.length := lines.length_eq.symm
      _ ≤ (filed ++ more).length := by rw [List.length_append]; exact Nat.le_add_right _ _
      _ = ((session.database opening).list .name).shown.length := names.length_eq

/-- A record under a short key behind one under a whole key, and a value that holds none. -/
def foreignPairs : List Pair :=
  [(List.replicate 16 0 ++ [0], Record.encode ⟨"a", [[1]]⟩), ([5], Record.encode ⟨"b", []⟩),
    ([6], [])]

theorem lists_until_fault_foreign :
    ∃ names lines : Listing,
      list .name (Session.holding (Database.empty.insertAll foreignPairs)) =
          .ok names (Session.holding (Database.empty.insertAll foreignPairs)) ∧
        list .line (Session.holding (Database.empty.insertAll foreignPairs)) =
          .ok lines (Session.holding (Database.empty.insertAll foreignPairs)) ∧
        names = ⟨["a", "b"], some (.quantity (.bufferExhausted 0))⟩ ∧
        lines = ⟨["record 00000000000000000000000000000000 #0 a fields=1 sizes=[1]"],
          some (.quantity (.offsetOutside 16 1))⟩ := by
  obtain ⟨names, lines, named, lined, _⟩ :=
    lists_until_fault (Session.ready_holding (Database.empty.insertAll foreignPairs))
  refine ⟨names, lines, named, lined, ?_, ?_⟩
  · cases (list_run (Session.ready_holding _) .name).symm.trans named
    decide +kernel
  · cases (list_run (Session.ready_holding _) .line).symm.trans lined
    decide +kernel

end Store

end Septet
