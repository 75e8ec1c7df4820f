import Septet.Proofs.Quantity.Sequence
import Septet.Proofs.Stream.Run
import Septet.Proofs.Stream.Writing

/-!
# What is read of a file that became full

A file that allows no more than a number of transfers keeps that many of the bytes that
are written to it.  Some quantities are in it as a whole (`wholeCount`), and those behind
them are refused, whether the caller goes on after the first refusal or not
(`visits_full`, `visits_torn`).

An initial part of a written quantity that is not all of it only has bytes that continue
a quantity, and they are too few to be too many.  So it is never read as a number, but
tells that the bytes end too early (`decodeAll_take_encode`).  What is read of the file
is therefore the quantities that are in it as a whole (`decodeAll_torn`).
-/

set_option autoImplicit false

namespace Septet.Quantity

variable (width : Width)

/-! ## Initial parts -/

theorem encode_ne_nil (integer : Int) : encode width integer ≠ [] := by
  obtain ⟨spelling, written, _⟩ := exists_spelling width integer
  rw [← written, ← List.length_pos_iff]
  exact spelling.length_bytes_pos

/-- **A part of a written quantity is no quantity**, but ends too early. -/
theorem decodeAll_take_encode (integer : Int) {cut : Nat}
    (short : cut < (encode width integer).length) :
    decodeAll width ((encode width integer).take cut) =
      { values := [], failure := if cut = 0 then none else some (.bufferExhausted cut) } := by
  obtain ⟨spelling, written, _⟩ := exists_spelling width integer
  rw [← written] at short ⊢
  rw [Spelling.length_bytes] at short
  have within : cut ≤ spelling.continuing.length := Nat.le_of_lt_succ short
  have part : spelling.bytes.take cut = spelling.continuing.take cut :=
    List.take_append_of_le_length within
  have length : (spelling.continuing.take cut).length = cut := List.length_take_of_le within
  have unspelled : Unspelled width 0 (spelling.continuing.take cut)
      (.bufferExhausted (0 + (spelling.continuing.take cut).length)) :=
    .exhausted (fun byte member => spelling.continues byte (List.mem_of_mem_take member))
      (by rw [length]; exact Nat.lt_of_le_of_lt within spelling.length_lt)
  rw [length, Nat.zero_add] at unspelled
  rw [part]
  by_cases none : cut = 0
  · subst none
    exact readAll_nil 0
  · have some : spelling.continuing.take cut ≠ [] := by
      rw [← List.length_pos_iff, length]
      exact Nat.pos_of_ne_zero none
    rw [if_neg none]
    exact readAll_unspelled some unspelled

/-- How many integers are written as a whole if no more than a number of bytes is. -/
def wholeCount : Nat → List Int → Nat
  | _, [] => 0
  | limit, integer :: integers =>
      if (encode width integer).length ≤ limit then
        wholeCount (limit - (encode width integer).length) integers + 1
      else 0

theorem wholeCount_le (integers : List Int) : ∀ limit : Nat,
    wholeCount width limit integers ≤ integers.length := by
  induction integers with
  | nil =>
      intro limit
      exact Nat.le_refl 0
  | cons integer integers ih =>
      intro limit
      rw [wholeCount, List.length_cons]
      split
      · exact Nat.add_le_add_right (ih _) 1
      · exact Nat.zero_le _

/-- The integers in front are those whose bytes end within the limit. -/
theorem lt_wholeCount_iff (integers : List Int) : ∀ (limit : Nat) {index : Nat},
    index < integers.length →
      (index < wholeCount width limit integers ↔
        ((integers.take (index + 1)).flatMap (encode width)).length ≤ limit) := by
  induction integers with
  | nil =>
      intro limit index inside
      exact absurd inside (Nat.not_lt_zero index)
  | cons integer integers ih =>
      intro limit index inside
      rw [wholeCount, List.take_succ_cons, List.flatMap_cons, List.length_append]
      by_cases fits : (encode width integer).length ≤ limit
      · rw [if_pos fits]
        cases index with
        | zero => simpa using fits
        | succ index =>
            have others :=
              ih (limit - (encode width integer).length) (Nat.lt_of_succ_lt_succ inside)
            omega
      · rw [if_neg fits]
        omega

/-- Bytes are cut within one of the quantities, or between two. -/
theorem exists_take_flatMap (integers : List Int) : ∀ limit : Nat,
    ∃ (next : Int) (cut : Nat), cut < (encode width next).length ∧
      (integers.flatMap (encode width)).take limit =
        (integers.take (wholeCount width limit integers)).flatMap (encode width) ++
          (encode width next).take cut := by
  induction integers with
  | nil =>
      intro limit
      refine ⟨0, 0, List.length_pos_iff.mpr (encode_ne_nil width 0), ?_⟩
      rw [List.flatMap_nil, List.take_nil, List.take_nil, List.flatMap_nil, List.take_zero,
        List.nil_append]
  | cons integer integers ih =>
      intro limit
      rw [wholeCount, List.flatMap_cons, List.take_append]
      by_cases fits : (encode width integer).length ≤ limit
      · obtain ⟨next, cut, short, part⟩ := ih (limit - (encode width integer).length)
        refine ⟨next, cut, short, ?_⟩
        rw [if_pos fits, List.take_of_length_le fits, part, List.take_succ_cons, List.flatMap_cons,
          List.append_assoc]
      · have short := Nat.lt_of_not_le fits
        refine ⟨integer, limit, short, ?_⟩
        rw [if_neg fits, Nat.sub_eq_zero_of_le (Nat.le_of_lt short), List.take_zero, List.take_zero,
          List.flatMap_nil, List.append_nil, List.nil_append]

/-- **What is read of an initial part**: the quantities in it as a whole, and that it ends too early
if it ends within one. -/
theorem decodeAll_take_flatMap (integers : List Int) (limit : Nat) :
    ∃ cut : Nat, decodeAll width ((integers.flatMap (encode width)).take limit) =
        { values := (integers.take (wholeCount width limit integers)).map width.reduce
          failure := if cut = 0 then none else
            some (.bufferExhausted ((integers.flatMap (encode width)).take limit).length) } ∧
      (cut = 0 → (integers.flatMap (encode width)).take limit =
        (integers.take (wholeCount width limit integers)).flatMap (encode width)) := by
  obtain ⟨next, cut, short, part⟩ := exists_take_flatMap width integers limit
  have whole := decodeAll_encode width (integers.take (wholeCount width limit integers))
  have length : ((encode width next).take cut).length = cut :=
    List.length_take_of_le (Nat.le_of_lt short)
  refine ⟨cut, ?_, ?_⟩
  · rw [part, decodeAll_append (by rw [whole]), whole, decodeAll_take_encode width next short,
      List.append_nil, List.length_append, length]
    by_cases none : cut = 0
    · rw [if_pos none, if_pos none, Option.map_none]
    · rw [if_neg none, if_neg none, Option.map_some, StreamError.shift]
  · rintro rfl
    rw [part, List.take_zero, List.append_nil]

/-! ## Files that become full -/

variable {file : ByteFile}

/-- A file without budget left refuses every quantity and stays as it is. -/
theorem pack_of_full (inside : file.Inside) (full : file.budget = some 0) (integer : Int) :
    pack width integer file = .error .diskFull file := by
  have some := List.length_pos_iff.mpr (encode_ne_nil width integer)
  have refused := ByteFile.putAll_of_full inside full some
  rwa [List.take_zero, ByteFile.written_nil] at refused

theorem visits_full (inside : file.Inside) (full : file.budget = some 0) (integers : List Int) :
    (StreamM.visits (pack width) integers file).map StreamM.Visit.outcome =
        List.replicate integers.length (.error .diskFull) ∧
      StreamM.finish (pack width) integers file = file := by
  induction integers with
  | nil => exact ⟨rfl, rfl⟩
  | cons integer integers ih =>
      have refused := pack_of_full width inside full integer
      rw [StreamM.visits_cons, StreamM.finish_cons, StreamM.left_error refused, List.map_cons,
        ih.1, ih.2, StreamM.visit, StreamM.outcome_error refused]
      exact ⟨rfl, rfl⟩

/-- **A run that goes on after failures writes the quantities that fit**, and of the next one as
much as fits.  All others are refused. -/
theorem visits_torn (integers : List Int) : ∀ {file : ByteFile} {limit : Nat}, file.Inside →
    file.budget = some limit →
      (StreamM.visits (pack width) integers file).map StreamM.Visit.outcome =
          List.replicate (wholeCount width limit integers) (.ok ()) ++
            List.replicate (integers.length - wholeCount width limit integers)
              (.error .diskFull) ∧
        StreamM.finish (pack width) integers file =
          file.written ((integers.flatMap (encode width)).take limit) := by
  induction integers with
  | nil =>
      intro file limit _ _
      refine ⟨rfl, ?_⟩
      rw [List.flatMap_nil, List.take_nil, ByteFile.written_nil]
      rfl
  | cons integer integers ih =>
      intro file limit inside budget
      rw [StreamM.visits_cons, StreamM.finish_cons, List.map_cons, wholeCount, List.flatMap_cons,
        List.take_append, List.length_cons, StreamM.visit]
      by_cases fits : (encode width integer).length ≤ limit
      · have packed : pack width integer file = .ok () (file.written (encode width integer)) :=
          ByteFile.putAll_of_allows inside (ByteFile.allows_of_le budget fits)
        have left : (file.written (encode width integer)).budget =
            some (limit - (encode width integer).length) := by
          rw [ByteFile.written, budget, Option.map_some]
        obtain ⟨outcomes, finished⟩ := ih (inside.written (encode width integer)) left
        rw [StreamM.left_ok packed, StreamM.outcome_ok packed, outcomes, finished, if_pos fits,
          List.take_of_length_le fits, ByteFile.written_written inside, List.replicate_succ,
          Nat.add_sub_add_right]
        exact ⟨rfl, rfl⟩
      · have short := Nat.lt_of_not_le fits
        have refused : pack width integer file =
            .error .diskFull (file.written ((encode width integer).take limit)) :=
          ByteFile.putAll_of_full inside budget short
        -- nothing of the others is written, since the budget is used up
        obtain ⟨outcomes, finished⟩ := visits_full width
          (inside.written ((encode width integer).take limit))
          (ByteFile.budget_written_take budget (Nat.le_of_lt short)) integers
        rw [StreamM.left_error refused, StreamM.outcome_error refused, outcomes, finished,
          if_neg fits, Nat.sub_eq_zero_of_le (Nat.le_of_lt short), List.take_zero, List.append_nil]
        exact ⟨rfl, rfl⟩

/-- Writing stops at the first quantity that does not fit, and leaves what a run leaves that goes
on. -/
theorem forM_pack_torn (integers : List Int) {limit : Nat} (inside : file.Inside)
    (budget : file.budget = some limit) :
    (forM integers (pack width)) file =
      if (integers.flatMap (encode width)).length ≤ limit then
        .ok () (file.written ((integers.flatMap (encode width)).take limit))
      else .error .diskFull (file.written ((integers.flatMap (encode width)).take limit)) := by
  have joined : (forM integers (pack width) : StreamM ByteFile Unit) =
      ByteSink.putAll (integers.flatMap (encode width)) := forM_putAll _ _
  rw [joined]
  by_cases fits : (integers.flatMap (encode width)).length ≤ limit
  · rw [if_pos fits, List.take_of_length_le fits,
      ByteFile.putAll_of_allows inside (ByteFile.allows_of_le budget fits)]
  · rw [if_neg fits, ByteFile.putAll_of_full inside budget (Nat.lt_of_not_le fits)]

/-- **A torn write is never read back as a wrong number.**  Whether the writer stops at the first
failure or goes on, the file holds as many of the bytes as it may, and the quantities that are not
written as a whole are the ones refused.  Reading gives the others, and ends early exactly if the
last byte is not the last one of a quantity. -/
theorem decodeAll_torn (integers : List Int) (limit : Nat) :
    ∃ torn : ByteFile,
      torn.content = (integers.flatMap (encode width)).take limit ∧
        (forM integers (pack width)) ({ budget := some limit } : ByteFile) =
          (if (integers.flatMap (encode width)).length ≤ limit then .ok () torn
            else .error .diskFull torn) ∧
        StreamM.finish (pack width) integers ({ budget := some limit } : ByteFile) = torn ∧
        ∃ count ≤ integers.length,
          (∀ index < integers.length, index < count ↔
            ((integers.take (index + 1)).flatMap (encode width)).length ≤ limit) ∧
          (StreamM.visits (pack width) integers ({ budget := some limit } : ByteFile)).map
              StreamM.Visit.outcome =
            List.replicate count (.ok ()) ++
              List.replicate (integers.length - count) (.error .diskFull) ∧
          (decodeAll width torn.content).values.map Int.ofNat =
            (integers.take count).map (· % 2 ^ width.bits) ∧
          ((decodeAll width torn.content).failure = none ↔
            ∃ boundary, torn.content = (integers.take boundary).flatMap (encode width)) ∧
          ((decodeAll width torn.content).failure = none ∨
            (decodeAll width torn.content).failure =
              some (.bufferExhausted torn.content.length)) := by
  let file : ByteFile := { budget := some limit }
  have inside : file.Inside := Nat.le_refl 0
  have content : (file.written ((integers.flatMap (encode width)).take limit)).content =
      (integers.flatMap (encode width)).take limit := by
    simp only [ByteFile.written, file, List.take_nil, List.drop_nil, List.nil_append,
      List.append_nil]
  obtain ⟨outcomes, finished⟩ := visits_torn width integers inside rfl
  obtain ⟨cut, read, boundary⟩ := decodeAll_take_flatMap width integers limit
  refine ⟨_, content, forM_pack_torn width integers inside rfl, finished,
    wholeCount width limit integers, wholeCount_le width integers limit,
    fun index => lt_wholeCount_iff width integers limit, outcomes, ?_, ?_, ?_⟩
  · rw [content, read]
    exact map_natCast_reduce width _
  · rw [content]
    constructor
    · intro complete
      refine ⟨wholeCount width limit integers, boundary ?_⟩
      by_contra torn
      rw [read, if_neg torn] at complete
      cases complete
    · rintro ⟨boundary, same⟩
      rw [same, decodeAll_encode]
  · rw [content, read]
    by_cases none : cut = 0
    · exact .inl (if_pos none)
    · exact .inr (if_neg none)

end Septet.Quantity
