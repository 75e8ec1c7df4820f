import Septet.Quantity.Basic
import Septet.Stream.File

/-!
# Writing to a file

Bytes that are written in parts are written in order (`putAll_append`), and what is
written for each of some items is what is written for all of them joined
(`forM_putAll`).

A file that bytes are written to has them at its position in place of what was there,
and reaches further if they do (`ByteFile.written`).  A file whose budget is large
enough takes all of them (`putAll_of_allows`).  Any other takes as many as its budget
has left and refuses the rest (`putAll_of_full`).
-/

set_option autoImplicit false

namespace Septet

/-! ## Writing in parts -/

section Sinks

variable {σ : Type} [ByteSink σ]

theorem putAll_append (front behind : Bytes) :
    (ByteSink.putAll (front ++ behind) : StreamM σ Unit) =
      (do ByteSink.putAll front; ByteSink.putAll behind) := by
  induction front with
  | nil => simp only [List.nil_append, ByteSink.putAll, pure_bind]
  | cons byte front ih => simp only [List.cons_append, ByteSink.putAll, ih, bind_assoc]

/-- Writing for each item is writing what there is to write for all of them. -/
theorem forM_putAll {α : Type} (spell : α → Bytes) (items : List α) :
    (forM items fun item => (ByteSink.putAll (spell item) : StreamM σ Unit)) =
      ByteSink.putAll (items.flatMap spell) := by
  induction items with
  | nil => rfl
  | cons item items ih => rw [List.forM_cons, ih, List.flatMap_cons, putAll_append]

end Sinks

namespace ByteFile

/-! ## Files that have been written to -/

/-- The file after bytes have been written at its position. -/
def written (file : ByteFile) (bytes : Bytes) : ByteFile where
  content :=
    file.content.take file.position ++ bytes ++ file.content.drop (file.position + bytes.length)
  position := file.position + bytes.length
  budget := file.budget.map (· - bytes.length)

/-- The position of a file lies in it or at its end. -/
def Inside (file : ByteFile) : Prop :=
  file.position ≤ file.content.length

/-- A file allows a number of transfers. -/
def Allows (file : ByteFile) (count : Nat) : Prop :=
  ∀ left ∈ file.budget, count ≤ left

variable {file : ByteFile} {limit count : Nat}

theorem allows_of_unlimited (unlimited : file.budget = none) : file.Allows count := by
  intro left budget
  rw [unlimited] at budget
  cases budget

theorem allows_of_le (budget : file.budget = some limit) (enough : count ≤ limit) :
    file.Allows count := by
  intro left there
  rw [budget] at there
  cases there
  exact enough

/-- A file to which as many bytes are written as it allows has no budget left. -/
theorem budget_written_take {bytes : Bytes} (budget : file.budget = some limit)
    (full : limit ≤ bytes.length) : (file.written (bytes.take limit)).budget = some 0 := by
  rw [written, budget, List.length_take_of_le full, Option.map_some, Nat.sub_self]

theorem written_nil : file.written [] = file := by
  obtain ⟨content, position, budget⟩ := file
  simp [written]

theorem Inside.written (inside : file.Inside) (bytes : Bytes) : (file.written bytes).Inside := by
  simp only [Inside, ByteFile.written, List.length_append, List.length_take] at inside ⊢
  omega

/-- Bytes that are written after others stand behind them. -/
theorem written_written (inside : file.Inside) (front behind : Bytes) :
    (file.written front).written behind = file.written (front ++ behind) := by
  obtain ⟨content, position, budget⟩ := file
  have reached : (content.take position ++ front).length = position + front.length := by
    rw [List.length_append, List.length_take_of_le inside]
  have kept : (content.take position ++ front ++ content.drop (position + front.length)).take
      (position + front.length) = content.take position ++ front := List.take_left' reached
  have left : (content.take position ++ front ++ content.drop (position + front.length)).drop
      (position + front.length + behind.length) =
        content.drop (position + (front ++ behind).length) := by
    rw [← reached, List.drop_length_add_append, List.drop_drop, reached, List.length_append,
      Nat.add_assoc]
  simp only [written, kept, left, mk.injEq]
  refine ⟨?_, ?_, ?_⟩
  · rw [List.append_assoc, List.append_assoc, List.append_assoc, List.append_assoc]
  · rw [List.length_append, Nat.add_assoc]
  · cases budget with
    | none => rfl
    | some left => simp only [Option.map_some, List.length_append, Nat.sub_sub]

/-- The bytes in front of the position stay. -/
theorem take_written (inside : file.Inside) (bytes : Bytes) :
    (file.written bytes).content.take file.position = file.content.take file.position := by
  simp only [written, List.append_assoc]
  exact List.take_left' (List.length_take_of_le inside)

/-- From the position on stand the bytes that were written, and then what had stood there. -/
theorem drop_written (inside : file.Inside) (bytes : Bytes) :
    (file.written bytes).content.drop file.position =
      bytes ++ file.content.drop (file.position + bytes.length) := by
  simp only [written, List.append_assoc]
  exact List.drop_left' (List.length_take_of_le inside)

/-- What stands behind the bytes that were written is what had stood there. -/
theorem drop_behind_written (inside : file.Inside) (bytes : Bytes) :
    (file.written bytes).content.drop (file.position + bytes.length) =
      file.content.drop (file.position + bytes.length) := by
  rw [← List.drop_drop, drop_written inside, List.drop_left]

/-- A file grows only as far as the bytes reach. -/
theorem length_written (inside : file.Inside) (bytes : Bytes) :
    (file.written bytes).content.length =
      max file.content.length (file.position + bytes.length) := by
  simp only [Inside, written, List.length_append, List.length_take, List.length_drop] at inside ⊢
  omega

/-! ## Writing -/

theorem seek_natCast (position : Nat) :
    ByteFile.seek position file = .ok () { file with position } := by
  rw [seek, if_pos (Int.natCast_nonneg position), Int.toNat_natCast]
  rfl

/-- A byte is written if one more transfer is allowed. -/
theorem put_of_allows (inside : file.Inside) (allows : file.Allows 1) (byte : UInt8) :
    ByteFile.put byte file = .ok () (file.written [byte]) := by
  obtain ⟨content, position, budget⟩ := file
  have padding : position - content.length = 0 := Nat.sub_eq_zero_of_le inside
  have placed : overwrite content position byte =
      content.take position ++ [byte] ++ content.drop (position + 1) := by
    simp only [overwrite, padding, List.replicate_zero, List.append_nil, List.append_assoc,
      List.singleton_append]
  cases budget with
  | none =>
      change EStateM.Result.ok ()
        (ByteFile.mk (overwrite content position byte) (position + 1) none) = _
      rw [placed]
      rfl
  | some left =>
      obtain ⟨left, rfl⟩ := Nat.exists_eq_add_one_of_ne_zero (Nat.ne_of_gt (allows left rfl))
      change EStateM.Result.ok ()
        (ByteFile.mk (overwrite content position byte) (position + 1) (some left)) = _
      rw [placed]
      rfl

/-- A file without budget left refuses a byte and stays as it is. -/
theorem put_of_full (full : file.budget = some 0) (byte : UInt8) :
    ByteFile.put byte file = .error .diskFull file := by
  simp only [ByteFile.put, spend, bind, EStateM.bind, full]

/-- **A file takes all the bytes that its budget allows.** -/
theorem putAll_of_allows {bytes : Bytes} : ∀ {file : ByteFile}, file.Inside →
    file.Allows bytes.length → ByteSink.putAll bytes file = .ok () (file.written bytes) := by
  induction bytes with
  | nil =>
      intro file _ _
      rw [written_nil]
      rfl
  | cons byte bytes ih =>
      intro file inside allows
      have one : file.Allows 1 := fun left budget => Nat.le_of_add_left_le (allows left budget)
      have others : (file.written [byte]).Allows bytes.length := by
        intro left budget
        obtain ⟨before, there, rfl⟩ := Option.map_eq_some_iff.mp budget
        have enough := allows before there
        rw [List.length_cons] at enough
        rw [List.length_singleton]
        omega
      have first : ByteSink.put byte file = .ok () (file.written [byte]) :=
        put_of_allows inside one byte
      simp only [ByteSink.putAll, bind, EStateM.bind, first, ih (inside.written [byte]) others,
        written_written inside, List.singleton_append]

/-- **A file takes as many bytes as its budget has left**, and refuses what is too much. -/
theorem putAll_of_full {bytes : Bytes} (inside : file.Inside) (budget : file.budget = some limit)
    (full : limit < bytes.length) :
    ByteSink.putAll bytes file = .error .diskFull (file.written (bytes.take limit)) := by
  have allows : file.Allows (bytes.take limit).length :=
    allows_of_le budget (List.length_take_le limit bytes)
  have refused : ByteSink.put bytes[limit] (file.written (bytes.take limit)) =
      .error .diskFull (file.written (bytes.take limit)) :=
    put_of_full (budget_written_take budget (Nat.le_of_lt full)) _
  have split : bytes = bytes.take limit ++ bytes[limit] :: bytes.drop (limit + 1) := by
    rw [← List.drop_eq_getElem_cons full, List.take_append_drop]
  calc ByteSink.putAll bytes file
      = (do
          ByteSink.putAll (bytes.take limit)
          ByteSink.putAll (bytes[limit] :: bytes.drop (limit + 1)) :
            StreamM ByteFile Unit) file := by
        rw [← putAll_append, ← split]
    _ = .error .diskFull (file.written (bytes.take limit)) := by
        simp only [bind, EStateM.bind, putAll_of_allows inside allows, ByteSink.putAll, refused]

end ByteFile

end Septet
