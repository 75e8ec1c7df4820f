import Septet.Proofs.Database.View

/-!
# Going through pairs

A name is looked for, and a number after all others is found, by going through pairs
in order.  What ends the search for a name is the first pair that holds a record of
the name or no record at all, so the search passes over pairs that hold records of
other names (`Passed`): the three results of a search are three ways in which the
pairs can be split (`firstNamed_eq_none_iff`, `firstNamed_eq_some_iff`,
`firstNamed_eq_error_iff`).

Because only these pairs count, replacing the record that a search has found, or
inserting a record of a name that is not there, changes the search for that name and
no other (`firstNamed_replace`, `firstNamed_insertPair`); so does taking a pair out
that holds a record of the name (`firstNamed_filter`).  Numbers depend on the keys
alone, and a further key with a number raises the next number just so far
(`numberAfter_insertPair`).
-/

set_option autoImplicit false

namespace Septet.Database

variable {name other : String} {key value : Bytes} {fields : List Bytes} {pairs rest : List Pair}
  {record : Record}

/-! ## Looking for a name -/

theorem firstNamed_cons_error {cause : RecordError} (broken : Record.decode value = .error cause) :
    firstNamed name ((key, value) :: rest) = .error cause := by
  simp only [firstNamed, broken, bind, Except.bind]

theorem firstNamed_cons_self (holds : Record.decode value = .ok ⟨name, fields⟩) :
    firstNamed name ((key, value) :: rest) = .ok (some ⟨key, fields⟩) := by
  simp only [firstNamed, holds, bind, Except.bind, if_true]

theorem firstNamed_cons_other (holds : Record.decode value = .ok record)
    (different : record.name ≠ name) :
    firstNamed name ((key, value) :: rest) = firstNamed name rest := by
  simp only [firstNamed, holds, bind, Except.bind, different, if_false]

/-- What a pair means to the search for a name: no record, a record of the name, or one of
another name. -/
theorem decode_cases (name : String) (value : Bytes) :
    (∃ cause, Record.decode value = .error cause) ∨
      (∃ fields, Record.decode value = .ok ⟨name, fields⟩) ∨
        ∃ record, Record.decode value = .ok record ∧ record.name ≠ name := by
  cases held : Record.decode value with
  | error cause => exact .inl ⟨cause, rfl⟩
  | ok record =>
      by_cases equal : record.name = name
      · subst equal
        exact .inr (.inl ⟨record.fields, rfl⟩)
      · exact .inr (.inr ⟨record, rfl, equal⟩)

/-- Pairs that the search for a name passes over: all hold records of other names. -/
def Passed (name : String) (pairs : List Pair) : Prop :=
  ∀ pair ∈ pairs, ∃ record, Record.decode pair.2 = .ok record ∧ record.name ≠ name

theorem passed_cons : Passed name ((key, value) :: rest) ↔
    (∃ record, Record.decode value = .ok record ∧ record.name ≠ name) ∧ Passed name rest := by
  simp only [Passed, List.forall_mem_cons]

theorem firstNamed_append {before : List Pair} (passed : Passed name before) :
    firstNamed name (before ++ rest) = firstNamed name rest := by
  induction before with
  | nil => rfl
  | cons pair before ih =>
      obtain ⟨⟨record, holds, different⟩, others⟩ := passed_cons.mp passed
      rw [List.cons_append, firstNamed_cons_other holds different, ih others]

/-- A search comes to an end at a pair behind those that it passes over, or passes over all. -/
theorem passed_or_stops (name : String) (pairs : List Pair) :
    Passed name pairs ∨ ∃ before key value after, pairs = before ++ (key, value) :: after ∧
      Passed name before ∧ ((∃ cause, Record.decode value = .error cause) ∨
        ∃ fields, Record.decode value = .ok ⟨name, fields⟩) := by
  induction pairs with
  | nil => exact .inl (List.forall_mem_nil _)
  | cons head rest ih =>
      obtain ⟨key, value⟩ := head
      have none : Passed name [] := List.forall_mem_nil _
      rcases decode_cases name value with broken | found | different
      · exact .inr ⟨[], key, value, rest, rfl, none, .inl broken⟩
      · exact .inr ⟨[], key, value, rest, rfl, none, .inr found⟩
      · rcases ih with all | ⟨before, stop, held, after, rfl, passed, ends⟩
        · exact .inl (passed_cons.mpr ⟨different, all⟩)
        · exact .inr ⟨(key, value) :: before, stop, held, after, rfl,
            passed_cons.mpr ⟨different, passed⟩, ends⟩

/-- A name is not there when all pairs hold records of other names. -/
theorem firstNamed_eq_none_iff : firstNamed name pairs = .ok none ↔ Passed name pairs := by
  constructor
  · intro absent
    rcases passed_or_stops name pairs with passed | ⟨before, key, value, after, rfl, passed, ends⟩
    · exact passed
    · rw [firstNamed_append passed] at absent
      rcases ends with ⟨cause, broken⟩ | ⟨fields, holds⟩
      · rw [firstNamed_cons_error broken] at absent
        cases absent
      · rw [firstNamed_cons_self holds] at absent
        cases absent
  · intro passed
    rw [← List.append_nil pairs, firstNamed_append passed, firstNamed]

/-- A record is found when only records of other names come before it. -/
theorem firstNamed_eq_some_iff {found : Found} :
    firstNamed name pairs = .ok (some found) ↔
      ∃ before value after, pairs = before ++ (found.key, value) :: after ∧
        Record.decode value = .ok ⟨name, found.fields⟩ ∧ Passed name before := by
  constructor
  · intro there
    rcases passed_or_stops name pairs with passed | ⟨before, key, value, after, rfl, passed, ends⟩
    · rw [firstNamed_eq_none_iff.mpr passed] at there
      cases there
    · rw [firstNamed_append passed] at there
      rcases ends with ⟨cause, broken⟩ | ⟨fields, holds⟩
      · rw [firstNamed_cons_error broken] at there
        cases there
      · rw [firstNamed_cons_self holds] at there
        cases there
        exact ⟨before, value, after, rfl, holds, passed⟩
  · rintro ⟨before, value, after, rfl, holds, passed⟩
    rw [firstNamed_append passed, firstNamed_cons_self holds]

/-- The search fails with what is wrong with a pair that comes before any record of the name. -/
theorem firstNamed_eq_error_iff {cause : RecordError} :
    firstNamed name pairs = .error cause ↔
      ∃ before key value after, pairs = before ++ (key, value) :: after ∧
        Record.decode value = .error cause ∧ Passed name before := by
  constructor
  · intro fails
    rcases passed_or_stops name pairs with passed | ⟨before, key, value, after, rfl, passed, ends⟩
    · rw [firstNamed_eq_none_iff.mpr passed] at fails
      cases fails
    · rw [firstNamed_append passed] at fails
      rcases ends with ⟨actual, broken⟩ | ⟨fields, holds⟩
      · rw [firstNamed_cons_error broken] at fails
        cases fails
        exact ⟨before, key, value, after, rfl, broken, passed⟩
      · rw [firstNamed_cons_self holds] at fails
        cases fails
  · rintro ⟨before, key, value, after, rfl, broken, passed⟩
    rw [firstNamed_append passed, firstNamed_cons_error broken]

/-! ## Writing and the search for names -/

/-- The search for one of two names goes past a pair that holds a record of the other, and finds a
record where it held one before. -/
theorem firstNamed_cons_congr {first second : List Pair}
    (same : firstNamed other first = firstNamed other second) :
    firstNamed other ((key, value) :: first) = firstNamed other ((key, value) :: second) := by
  simp only [firstNamed, same]

/-- **Replacing the record that was found changes the search for its name only.** -/
theorem firstNamed_replace (sorted : Sorted pairs) {found : Found}
    (there : firstNamed name pairs = .ok (some found))
    (holds : Record.decode value = .ok ⟨name, fields⟩) (other : String) :
    firstNamed other (insertPair found.key value pairs) =
      if other = name then .ok (some ⟨found.key, fields⟩) else firstNamed other pairs := by
  induction pairs with
  | nil => cases there
  | cons head pairs ih =>
      obtain ⟨key, held⟩ := head
      obtain ⟨first, tail⟩ := List.pairwise_cons.mp sorted
      rcases decode_cases name held with ⟨cause, broken⟩ | ⟨old, self⟩ | ⟨record, holdsOther, different⟩
      · rw [firstNamed_cons_error broken] at there
        cases there
      · rw [firstNamed_cons_self self] at there
        cases there
        rw [insertPair, if_neg (List.lt_irrefl key), if_pos rfl]
        split
        · next same => rw [same, firstNamed_cons_self holds]
        · next apart =>
            rw [firstNamed_cons_other holds (Ne.symm apart),
              firstNamed_cons_other self (Ne.symm apart)]
      · rw [firstNamed_cons_other holdsOther different] at there
        obtain ⟨before, old, after, rfl, _, _⟩ := firstNamed_eq_some_iff.mp there
        have behind : key < found.key :=
          first (found.key, old) (List.mem_append_right _ List.mem_cons_self)
        have notBefore : ¬found.key < key := fun less =>
          List.lt_irrefl _ (List.lt_trans behind less)
        have apart : found.key ≠ key := fun same => List.lt_irrefl key (same ▸ behind)
        rw [insertPair, if_neg notBefore, if_neg apart]
        split
        · next same =>
            subst same
            rw [firstNamed_cons_other holdsOther different, ih tail there, if_pos rfl]
        · next distinct =>
            exact firstNamed_cons_congr ((ih tail there).trans (if_neg distinct))

/-- **Inserting a record of a name that is not there changes the search for that name only.** -/
theorem firstNamed_insertPair (absent : Passed name pairs) (new : ∀ pair ∈ pairs, pair.1 ≠ key)
    (holds : Record.decode value = .ok ⟨name, fields⟩) (other : String) :
    firstNamed other (insertPair key value pairs) =
      if other = name then .ok (some ⟨key, fields⟩) else firstNamed other pairs := by
  -- at the place of the new pair the search for its name ends and any other goes on
  have here : ∀ later : List Pair, firstNamed other ((key, value) :: later) =
      if other = name then .ok (some ⟨key, fields⟩) else firstNamed other later := by
    intro later
    split
    · next same => rw [same, firstNamed_cons_self holds]
    · next apart => rw [firstNamed_cons_other holds (Ne.symm apart)]
  induction pairs with
  | nil => exact here []
  | cons head pairs ih =>
      obtain ⟨first, held⟩ := head
      obtain ⟨⟨record, holdsOther, different⟩, others⟩ := passed_cons.mp absent
      obtain ⟨apart, newer⟩ := List.forall_mem_cons.mp new
      rw [insertPair]
      split
      · exact here _
      · rw [if_neg (Ne.symm apart)]
        split
        · next same =>
            subst same
            rw [firstNamed_cons_other holdsOther different, ih others newer, if_pos rfl]
        · next distinct =>
            exact firstNamed_cons_congr ((ih others newer).trans (if_neg distinct))

/-- **Taking a key out whose pair holds a record of another name does not change a search.** -/
theorem firstNamed_filter
    (theirs : ∀ pair ∈ pairs, pair.1 = key →
      ∃ record, Record.decode pair.2 = .ok record ∧ record.name ≠ name) :
    firstNamed name (pairs.filter fun pair => pair.1 ≠ key) = firstNamed name pairs := by
  induction pairs with
  | nil => rfl
  | cons head pairs ih =>
      obtain ⟨first, held⟩ := head
      obtain ⟨atHead, others⟩ := List.forall_mem_cons.mp theirs
      by_cases equal : first = key
      · obtain ⟨record, holds, different⟩ := atHead equal
        rw [List.filter_cons_of_neg (by simpa using equal), ih others,
          firstNamed_cons_other holds different]
      · rw [List.filter_cons_of_pos (by simpa using equal)]
        exact firstNamed_cons_congr (ih others)

/-! ## Numbers -/

theorem numberAfter_cons {least : Nat} {decoded : Quantity.Decoded}
    (numbered : Quantity.decode .bits64 key 0 = .ok decoded) :
    numberAfter least ((key, value) :: rest) = numberAfter (max least (decoded.value + 1)) rest := by
  simp only [numberAfter, numbered, bind, Except.bind]

theorem numberAfter_cons_error {least : Nat} {cause : StreamError}
    (unnumbered : Quantity.decode .bits64 key 0 = .error cause) :
    numberAfter least ((key, value) :: rest) = .error cause := by
  simp only [numberAfter, unnumbered, bind, Except.bind]

/-- All keys of some pairs begin with a number. -/
def Numbered (pairs : List Pair) : Prop :=
  ∀ pair ∈ pairs, ∃ decoded, Quantity.decode .bits64 pair.1 0 = .ok decoded

theorem numbered_cons : Numbered ((key, value) :: rest) ↔
    (∃ decoded, Quantity.decode .bits64 key 0 = .ok decoded) ∧ Numbered rest := by
  simp only [Numbered, List.forall_mem_cons]

/-- When all keys have numbers, the number after them is the least one or follows one of theirs,
and it is greater than all of theirs. -/
theorem numberAfter_of_numbered (numbered : Numbered pairs) : ∀ least : Nat,
    ∃ number, numberAfter least pairs = .ok number ∧ least ≤ number ∧
      (∀ pair ∈ pairs, ∀ decoded, Quantity.decode .bits64 pair.1 0 = .ok decoded →
        decoded.value < number) ∧
      (number = least ∨ ∃ pair ∈ pairs, ∃ decoded,
        Quantity.decode .bits64 pair.1 0 = .ok decoded ∧ number = decoded.value + 1) := by
  induction pairs with
  | nil =>
      intro least
      exact ⟨least, rfl, Nat.le_refl least, List.forall_mem_nil _, .inl rfl⟩
  | cons head pairs ih =>
      intro least
      obtain ⟨key, value⟩ := head
      obtain ⟨⟨decoded, first⟩, others⟩ := numbered_cons.mp numbered
      obtain ⟨number, result, above, greater, attained⟩ := ih others (max least (decoded.value + 1))
      refine ⟨number, (numberAfter_cons first).trans result, by omega, ?_, ?_⟩
      · refine List.forall_mem_cons.mpr ⟨fun again same => ?_, greater⟩
        cases first.symm.trans same
        omega
      · rcases attained with same | ⟨pair, member, later, found, follows⟩
        · rcases Nat.le_total least (decoded.value + 1) with less | more
          · exact .inr ⟨(key, value), List.mem_cons_self, decoded, first, by omega⟩
          · exact .inl (by omega)
        · exact .inr ⟨pair, List.mem_cons_of_mem _ member, later, found, follows⟩

/-- There is a number after all others unless a key has none, and the first such key counts. -/
theorem numberAfter_eq_error_iff {cause : StreamError} : ∀ {least : Nat},
    numberAfter least pairs = .error cause ↔
      ∃ before key value after, pairs = before ++ (key, value) :: after ∧
        Quantity.decode .bits64 key 0 = .error cause ∧ Numbered before := by
  induction pairs with
  | nil =>
      intro least
      refine iff_of_false (fun fails => by cases fails) ?_
      rintro ⟨before, key, value, after, split, _⟩
      exact absurd split.symm (by simp)
  | cons head pairs ih =>
      intro least
      obtain ⟨key, value⟩ := head
      cases first : Quantity.decode .bits64 key 0 with
      | error actual =>
          rw [numberAfter_cons_error first]
          constructor
          · intro same
            cases same
            exact ⟨[], key, value, pairs, rfl, first, List.forall_mem_nil _⟩
          · rintro ⟨before, stop, held, after, split, unnumbered, numbered⟩
            cases before with
            | nil =>
                cases split
                exact congrArg Except.error (Except.error.inj (first.symm.trans unnumbered))
            | cons pair before =>
                cases split
                obtain ⟨⟨decoded, found⟩, _⟩ := numbered_cons.mp numbered
                cases first.symm.trans found
      | ok decoded =>
          rw [numberAfter_cons first, ih]
          constructor
          · rintro ⟨before, stop, held, after, rfl, unnumbered, numbered⟩
            exact ⟨(key, value) :: before, stop, held, after, rfl, unnumbered,
              numbered_cons.mpr ⟨⟨decoded, first⟩, numbered⟩⟩
          · rintro ⟨before, stop, held, after, split, unnumbered, numbered⟩
            cases before with
            | nil =>
                cases split
                cases first.symm.trans unnumbered
            | cons pair before =>
                cases split
                exact ⟨before, stop, held, after, rfl, unnumbered, (numbered_cons.mp numbered).2⟩

theorem numbered_of_numberAfter {least number : Nat} (result : numberAfter least pairs = .ok number) :
    Numbered pairs := by
  induction pairs generalizing least with
  | nil => exact List.forall_mem_nil _
  | cons head pairs ih =>
      obtain ⟨key, value⟩ := head
      cases first : Quantity.decode .bits64 key 0 with
      | error cause =>
          rw [numberAfter_cons_error first] at result
          cases result
      | ok decoded =>
          rw [numberAfter_cons first] at result
          exact numbered_cons.mpr ⟨⟨decoded, first⟩, ih result⟩

/-! ## Writing and numbers -/

theorem numberAfter_congr : ∀ {least : Nat} {first second : List Pair},
    first.map Prod.fst = second.map Prod.fst → numberAfter least first = numberAfter least second
  | _, [], [], _ => rfl
  | least, (key, _) :: first, (_, _) :: second, same => by
      obtain ⟨rfl, rest⟩ := List.cons.inj same
      simp only [numberAfter]
      refine congrArg _ (funext fun decoded => ?_)
      exact numberAfter_congr rest

/-- A key that is there stays where it is when its value is replaced. -/
theorem keys_insertPair (sorted : Sorted pairs) {old : Bytes} (there : (key, old) ∈ pairs) :
    (insertPair key value pairs).map Prod.fst = pairs.map Prod.fst := by
  induction pairs with
  | nil => cases there
  | cons head pairs ih =>
      obtain ⟨first, held⟩ := head
      obtain ⟨before, tail⟩ := List.pairwise_cons.mp sorted
      rcases List.mem_cons.mp there with same | behind
      · cases same
        rw [insertPair, if_neg (List.lt_irrefl key), if_pos rfl]
        rfl
      · have less : first < key := before _ behind
        have notBefore : ¬key < first := fun greater =>
          List.lt_irrefl _ (List.lt_trans less greater)
        have apart : key ≠ first := fun same => List.lt_irrefl first (same ▸ less)
        rw [insertPair, if_neg notBefore, if_neg apart, List.map_cons, List.map_cons,
          ih tail behind]

/-- Starting from a greater number raises the result as far as that number asks for. -/
theorem numberAfter_max (more : Nat) : ∀ {least number : Nat},
    numberAfter least pairs = .ok number →
      numberAfter (max least more) pairs = .ok (max number more) := by
  induction pairs with
  | nil =>
      intro least number result
      cases result
      rfl
  | cons head pairs ih =>
      intro least number result
      obtain ⟨first, held⟩ := head
      obtain ⟨⟨decoded, found⟩, _⟩ := numbered_cons.mp (numbered_of_numberAfter result)
      rw [numberAfter_cons found] at result ⊢
      rw [Nat.max_right_comm]
      exact ih result

/-- **A further key with a number raises the next number as far as its own number asks for.** -/
theorem numberAfter_insertPair {decoded : Quantity.Decoded}
    (numbered : Quantity.decode .bits64 key 0 = .ok decoded)
    (new : ∀ pair ∈ pairs, pair.1 ≠ key) :
    ∀ {least number : Nat}, numberAfter least pairs = .ok number →
      numberAfter least (insertPair key value pairs) = .ok (max number (decoded.value + 1)) := by
  induction pairs with
  | nil =>
      intro least number result
      cases result
      rw [insertPair, numberAfter_cons numbered, numberAfter]
  | cons head pairs ih =>
      intro least number result
      obtain ⟨first, held⟩ := head
      obtain ⟨apart, newer⟩ := List.forall_mem_cons.mp new
      obtain ⟨⟨own, found⟩, _⟩ := numbered_cons.mp (numbered_of_numberAfter result)
      rw [insertPair]
      split
      · rw [numberAfter_cons numbered]
        exact numberAfter_max _ result
      · rw [if_neg (Ne.symm apart), numberAfter_cons found]
        rw [numberAfter_cons found] at result
        exact ih newer result

end Septet.Database
