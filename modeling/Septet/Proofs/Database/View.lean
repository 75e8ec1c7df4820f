import Mathlib.Data.List.Basic
import Septet.Database.Lookup

/-!
# Views of databases under writing

The pairs under a start are a sorted list of their own, and a database is written to
and erased from through it: a pair that is written under a start is inserted in the
view of that start (`under_insert`), a key that is erased is taken out of it
(`under_erase`), and a view of another start stays as it is.  All digests have the
same length, so a key under one digest is under no other
(`behind?_digest_of_ne`).
-/

set_option autoImplicit false

namespace Septet

theorem Digest.eq_of_bytes {first second : Digest} (same : first.bytes = second.bytes) :
    first = second := by
  cases first
  cases second
  exact Digest.mk.injEq _ _ _ _ ▸ same

/-! ## Sorted pairs -/

theorem Sorted.eq_of_key {pairs : List Pair} (sorted : Sorted pairs) {first second : Pair}
    (firstMember : first ∈ pairs) (secondMember : second ∈ pairs) (same : first.1 = second.1) :
    first = second := by
  induction pairs with
  | nil => cases firstMember
  | cons head rest ih =>
      obtain ⟨before, tail⟩ := List.pairwise_cons.mp sorted
      rcases List.mem_cons.mp firstMember with rfl | firstBehind
      · rcases List.mem_cons.mp secondMember with rfl | secondBehind
        · rfl
        · exact absurd (before second secondBehind) (same ▸ List.lt_irrefl _)
      · rcases List.mem_cons.mp secondMember with rfl | secondBehind
        · exact absurd (before first firstBehind) (same ▸ List.lt_irrefl _)
        · exact ih tail firstBehind secondBehind

/-- A pair is inserted in front of pairs with greater keys. -/
theorem insertPair_of_forall_lt {key value : Bytes} {pairs : List Pair}
    (before : ∀ pair ∈ pairs, key < pair.1) :
    insertPair key value pairs = (key, value) :: pairs := by
  cases pairs with
  | nil => rfl
  | cons head rest => rw [insertPair, if_pos (before head List.mem_cons_self)]

/-- After a pair has been inserted there are that pair and the pairs with other keys. -/
theorem mem_insertPair {key value : Bytes} {pair : Pair} {pairs : List Pair}
    (sorted : Sorted pairs) :
    pair ∈ insertPair key value pairs ↔ pair = (key, value) ∨ pair ∈ pairs ∧ pair.1 ≠ key := by
  induction pairs with
  | nil => simp [insertPair]
  | cons head rest ih =>
      obtain ⟨other, held⟩ := head
      obtain ⟨first, tail⟩ := List.pairwise_cons.mp sorted
      have behind : ∀ later ∈ rest, ¬later.1 < other := fun later member after =>
        List.lt_irrefl _ (List.lt_trans (first later member) after)
      simp only [insertPair]
      split
      · next before =>
          have apart : ∀ later ∈ (other, held) :: rest, later.1 ≠ key := by
            rintro later member rfl
            rcases List.mem_cons.mp member with rfl | further
            · exact List.lt_irrefl _ before
            · exact behind later further before
          rw [List.mem_cons]
          exact or_congr_right ⟨fun member => ⟨member, apart pair member⟩, And.left⟩
      · split
        · next same =>
            subst same
            have apart : ∀ later ∈ rest, later.1 ≠ key := by
              rintro later member rfl
              exact List.lt_irrefl _ (first later member)
            simp only [List.mem_cons]
            constructor
            · rintro (rfl | member)
              · exact .inl rfl
              · exact .inr ⟨.inr member, apart pair member⟩
            · rintro (rfl | ⟨rfl | member, different⟩)
              · exact .inl rfl
              · exact absurd rfl different
              · exact .inr member
        · next different =>
            simp only [List.mem_cons, ih tail]
            constructor
            · rintro (rfl | rfl | ⟨member, apart⟩)
              · exact .inr ⟨.inl rfl, Ne.symm different⟩
              · exact .inl rfl
              · exact .inr ⟨.inr member, apart⟩
            · rintro (rfl | ⟨rfl | member, apart⟩)
              · exact .inr (.inl rfl)
              · exact .inl rfl
              · exact .inr (.inr ⟨member, apart⟩)

namespace Database

/-! ## Starts of keys -/

/-- A key has a start exactly when something comes behind it. -/
theorem behind?_eq_some_iff {start key rest : Bytes} :
    behind? start key = some rest ↔ key = start ++ rest := by
  unfold behind?
  split
  · next first =>
      obtain ⟨tail, rfl⟩ := List.isPrefixOf_iff_prefix.mp first
      rw [List.drop_left, Option.some.injEq, List.append_cancel_left_eq, eq_comm]
  · next other =>
      refine iff_of_false (Option.some_ne_none _).symm ?_
      rintro rfl
      exact other (List.isPrefixOf_iff_prefix.mpr (List.prefix_append start rest))

theorem behind?_append (start rest : Bytes) : behind? start (start ++ rest) = some rest :=
  behind?_eq_some_iff.mpr rfl

/-- A key under a digest is under no other. -/
theorem behind?_digest_of_ne {first second : Digest} (different : first ≠ second) (rest : Bytes) :
    behind? first.bytes (second.bytes ++ rest) = none := by
  rw [Option.eq_none_iff_forall_ne_some]
  intro tail found
  have same := List.append_inj_left (behind?_eq_some_iff.mp found)
    (second.length_bytes.trans first.length_bytes.symm)
  exact different (Digest.eq_of_bytes same.symm)

/-- Keys with the same start are in the order of what comes behind it. -/
theorem append_lt_append_iff {start first second : Bytes} :
    start ++ first < start ++ second ↔ first < second := by
  constructor
  · intro before
    by_contra notBefore
    by_cases equal : first = second
    · subst equal
      exact List.lt_irrefl _ before
    · have after : start ++ second < start ++ first :=
        List.append_left_lt (lt_of_not_lt_of_ne notBefore equal)
      exact List.lt_irrefl _ (List.lt_trans before after)
  · exact List.append_left_lt

/-! ## Views of lists of pairs -/

/-- The pairs of a list whose keys have a start, with the keys written without it. -/
def viewOf (start : Bytes) (pairs : List Pair) : List Pair :=
  pairs.filterMap fun pair => (behind? start pair.1).map fun rest => (rest, pair.2)

theorem viewOf_cons_some {start key value rest : Bytes} (pairs : List Pair)
    (found : behind? start key = some rest) :
    viewOf start ((key, value) :: pairs) = (rest, value) :: viewOf start pairs := by
  simp only [viewOf, List.filterMap_cons, found, Option.map_some]

theorem viewOf_cons_none {start key value : Bytes} (pairs : List Pair)
    (absent : behind? start key = none) :
    viewOf start ((key, value) :: pairs) = viewOf start pairs := by
  simp only [viewOf, List.filterMap_cons, absent, Option.map_none]

/-- A view has the pairs whose keys have the start. -/
theorem mem_viewOf {start : Bytes} {pair : Pair} {pairs : List Pair} :
    pair ∈ viewOf start pairs ↔ (start ++ pair.1, pair.2) ∈ pairs := by
  simp only [viewOf, List.mem_filterMap, Option.map_eq_some_iff, behind?_eq_some_iff]
  constructor
  · rintro ⟨⟨key, value⟩, member, rest, rfl, rfl⟩
    exact member
  · intro member
    exact ⟨_, member, pair.1, rfl, rfl⟩

theorem sorted_viewOf (start : Bytes) {pairs : List Pair} (sorted : Sorted pairs) :
    Sorted (viewOf start pairs) := by
  refine List.Pairwise.filterMap _ ?_ sorted
  rintro first second before shownFirst firstFound shownSecond secondFound
  obtain ⟨firstRest, firstBehind, rfl⟩ := Option.map_eq_some_iff.mp firstFound
  obtain ⟨secondRest, secondBehind, rfl⟩ := Option.map_eq_some_iff.mp secondFound
  rw [behind?_eq_some_iff.mp firstBehind, behind?_eq_some_iff.mp secondBehind] at before
  exact append_lt_append_iff.mp before

/-- A pair that is inserted under a start is inserted in the view. -/
theorem viewOf_insertPair (start rest value : Bytes) {pairs : List Pair} (sorted : Sorted pairs) :
    viewOf start (insertPair (start ++ rest) value pairs) =
      insertPair rest value (viewOf start pairs) := by
  induction pairs with
  | nil => exact viewOf_cons_some [] (behind?_append start rest)
  | cons head pairs ih =>
      obtain ⟨other, held⟩ := head
      obtain ⟨first, tail⟩ := List.pairwise_cons.mp sorted
      simp only [insertPair]
      split
      · next before =>
          -- every pair of the view has a key behind the inserted one
          have all : ∀ pair ∈ viewOf start ((other, held) :: pairs), rest < pair.1 := by
            intro pair member
            rcases List.mem_cons.mp (mem_viewOf.mp member) with same | behind
            · have key : start ++ pair.1 = other := congrArg Prod.fst same
              exact append_lt_append_iff.mp (key ▸ before)
            · exact append_lt_append_iff.mp (List.lt_trans before (first _ behind))
          rw [insertPair_of_forall_lt all, viewOf_cons_some _ (behind?_append start rest)]
      · next notBefore =>
          split
          · next same =>
              subst same
              rw [viewOf_cons_some _ (behind?_append start rest),
                viewOf_cons_some _ (behind?_append start rest), insertPair,
                if_neg (List.lt_irrefl rest), if_pos rfl]
          · next different =>
              rcases Option.eq_none_or_eq_some (behind? start other) with absent | ⟨other', found⟩
              · rw [viewOf_cons_none _ absent, viewOf_cons_none _ absent, ih tail]
              · rw [behind?_eq_some_iff.mp found, append_lt_append_iff] at notBefore
                rw [behind?_eq_some_iff.mp found, List.append_cancel_left_eq] at different
                rw [viewOf_cons_some _ found, viewOf_cons_some _ found, ih tail, insertPair,
                  if_neg notBefore, if_neg different]

theorem viewOf_insertPair_of_none {start key value : Bytes} {pairs : List Pair}
    (absent : behind? start key = none) :
    viewOf start (insertPair key value pairs) = viewOf start pairs := by
  induction pairs with
  | nil => exact viewOf_cons_none [] absent
  | cons head pairs ih =>
      obtain ⟨other, held⟩ := head
      simp only [insertPair]
      split
      · exact viewOf_cons_none _ absent
      · split
        · next same =>
            subst same
            rw [viewOf_cons_none _ absent, viewOf_cons_none _ absent]
        · rcases Option.eq_none_or_eq_some (behind? start other) with none | ⟨rest, found⟩
          · rw [viewOf_cons_none _ none, viewOf_cons_none _ none, ih]
          · rw [viewOf_cons_some _ found, viewOf_cons_some _ found, ih]

/-! ## Views of databases -/

variable (database : Database) (start : Bytes)

theorem mem_under {pair : Pair} :
    pair ∈ database.under start ↔ (start ++ pair.1, pair.2) ∈ database.pairs :=
  mem_viewOf

theorem sorted_under : Sorted (database.under start) :=
  sorted_viewOf start database.sorted

/-- **A pair that is written under a start is inserted in the view.** -/
theorem under_insert (rest value : Bytes) :
    (database.insert (start ++ rest) value).under start =
      insertPair rest value (database.under start) :=
  viewOf_insertPair start rest value database.sorted

/-- A pair that is written under a digest is not seen under another. -/
theorem under_insert_of_ne {first second : Digest} (different : first ≠ second)
    (rest value : Bytes) :
    (database.insert (second.bytes ++ rest) value).under first.bytes =
      database.under first.bytes :=
  viewOf_insertPair_of_none (behind?_digest_of_ne different rest)

/-- **A key that is erased under a start is taken out of the view.** -/
theorem under_erase (rest : Bytes) :
    (database.erase (start ++ rest)).under start =
      (database.under start).filter fun pair => pair.1 ≠ rest := by
  simp only [under, erase, List.filterMap_filter, List.filter_filterMap]
  refine List.filterMap_congr fun pair _ => ?_
  rcases Option.eq_none_or_eq_some (behind? start pair.1) with absent | ⟨tail, found⟩
  · simp only [absent, Option.map_none, Option.filter_none, ite_self]
  · have same : pair.1 ≠ start ++ rest ↔ tail ≠ rest := by
      rw [behind?_eq_some_iff.mp found, Ne, List.append_cancel_left_eq]
    simp only [found, same, Option.map_some, Option.filter_some]

/-- A key that is erased under a digest was not seen under another. -/
theorem under_erase_of_ne {first second : Digest} (different : first ≠ second) (rest : Bytes) :
    (database.erase (second.bytes ++ rest)).under first.bytes = database.under first.bytes := by
  simp only [under, erase, List.filterMap_filter]
  refine List.filterMap_congr fun pair _ => ?_
  split
  · rfl
  · next same =>
      simp only [decide_eq_true_eq, Decidable.not_not] at same
      simp only [same, behind?_digest_of_ne different, Option.map_none]

end Database

end Septet
