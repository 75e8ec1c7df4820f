import Septet.Proofs.CommandLine.Flags
import Septet.Proofs.CommandLine.Shelf
import Septet.Proofs.Quantity.Sequence
import Septet.Proofs.Text.Digits

/-!
# Runs that read and write quantities

Two commands read quantities: one from hexadecimal text, the other from a file.  What they
print, and how they end, is known from how the bytes are cut into spellings and a rest
(`quantityOutcome`): the values of the spellings are printed, and then a rest is reported
(`run_decode`, `run_dump`).  So it does not count where the bytes come from, nor how they
are spelled.

A third command writes quantities as lines of hexadecimal text (`run_encode`).  Its lines,
one behind the other, are a spelling of all that it has written, and so they are read as the
integers that were given, reduced by the width (`run_quantities`).
-/

set_option autoImplicit false

namespace Septet.CommandLine

open Quantity

variable {width : Width} {surroundings : Surroundings} {machine : Machine}

/-! ## Printing quantities -/

/-- What is printed and reported of bytes that are cut into spellings and a rest. -/
def quantityOutcome (segmentation : Segmentation width) : Outcome where
  printed := String.join (segmentation.spellings.map fun spelling =>
    toString spelling.value ++ "\n")
  reported :=
    match segmentation.failure 0 with
    | none => ""
    | some cause => "vlqdb: " ++ cause.message ++ "\n"
  ending := if segmentation.rest = [] then .exit 0 else .exit 1

/-- The values of all spellings are printed before a rest fails. -/
theorem printQuantities_run (segmentation : Segmentation width) (desk : Desk) :
    printQuantities (some width) segmentation.bytes desk =
      match segmentation.failure 0 with
      | none => .ok () { desk with
          printed := desk.printed ++ (quantityOutcome segmentation).printed }
      | some cause => .error (.quantity cause) { desk with
          printed := desk.printed ++ (quantityOutcome segmentation).printed } := by
  have printed : printLines ((segmentation.spellings.map Spelling.value).map toString) desk =
      .ok () { desk with printed := desk.printed ++ (quantityOutcome segmentation).printed } := by
    rw [printLines_run, List.map_map, List.map_map]
    rfl
  simp only [printQuantities, decodeAll_segmentation]
  rw [EStateM.bind_ok printed]
  cases segmentation.failure 0 <;> rfl

/-- A command that prints what bytes hold ends as their segmentation has it. -/
theorem conclude_printQuantities {path : Path} {command : Command}
    (segmentation : Segmentation width)
    (performed : perform surroundings path command { machine } =
      printQuantities (some width) segmentation.bytes { machine }) :
    conclude surroundings machine path command = (quantityOutcome segmentation, machine) := by
  have start : "" ++ (quantityOutcome segmentation).printed =
      (quantityOutcome segmentation).printed := String.empty_append
  rw [printQuantities_run] at performed
  cases failure : segmentation.failure 0 with
  | none =>
      rw [failure] at performed
      have complete := (segmentation.failure_eq_none_iff 0).mp failure
      rw [conclude_ok performed, start]
      simp only [Shelf.success, quantityOutcome, failure, if_pos complete]
  | some cause =>
      rw [failure] at performed
      have rest : ¬segmentation.rest = [] := by
        rw [← segmentation.failure_eq_none_iff 0, failure]
        exact Option.some_ne_none cause
      have reported : (RunError.quantity cause).isReported = true := rfl
      have message : (RunError.quantity cause).message = cause.message := rfl
      rw [conclude_error reported performed, start, message]
      simp only [quantityOutcome, failure, if_neg rest]

/-- The rest is missing from the bytes that are spellings one after the other. -/
theorem exists_units_iff (segmentation : Segmentation width) :
    (∃ units : List (Spelling width), segmentation.bytes = units.flatMap Spelling.bytes) ↔
      segmentation.rest = [] := by
  constructor
  · rintro ⟨units, same⟩
    rw [← Segmentation.bytes_ofSpellings] at same
    rw [Segmentation.bytes_injective same]
    rfl
  · intro complete
    refine ⟨segmentation.spellings, ?_⟩
    rw [Segmentation.bytes, complete, List.append_nil]

/-! ## Reports -/

theorem newline_not_mem_toString (number : Nat) : '\n' ∉ (toString number).toList := by
  intro member
  rw [Nat.toString_eq_repr, Nat.toList_repr] at member
  exact absurd (isGraphic_of_mem_toDigits member) (by decide)

theorem newline_not_mem_render (bytes : Bytes) : '\n' ∉ (Hex.render bytes).toList := by
  intro member
  rw [Hex.render, String.toList_ofList] at member
  exact absurd (Hex.isGraphic_of_mem_renderChars member) (by decide)

/-- What is reported of a rest is one line. -/
theorem newline_not_mem_message {segmentation : Segmentation width} {cause : StreamError}
    (failed : segmentation.failure 0 = some cause) : '\n' ∉ cause.message.toList := by
  rw [Segmentation.failure] at failed
  split at failed
  · cases failed
  · split at failed
    · cases failed
      have fixed : '\n' ∉ "Buffer exhausted at offset ".toList := by decide +kernel
      have message (offset : Nat) : (StreamError.bufferExhausted offset).message =
          "Buffer exhausted at offset " ++ toString offset := rfl
      rw [message, String.toList_append, List.mem_append]
      exact not_or.mpr ⟨fixed, newline_not_mem_toString _⟩
    · cases failed
      cases width <;> decide +kernel

/-! ## Runs -/

section Runs

variable (unset : machine.disk.files.find
  (Store.settingsPath (storePath none surroundings machine)) = .ok none)
include unset

/-- **Hexadecimal text is read as the bytes that it spells**, whichever spelling it is. -/
theorem run_decode (segmentation : Segmentation width) {digits : String}
    (spells : Hex.Spells digits.toList segmentation.bytes) :
    run surroundings ["decode", "--width", widthText width, digits] machine =
      (quantityOutcome segmentation, machine) := by
  have plain : Wording [digits] [digits] :=
    .plain (List.forall_mem_singleton.mpr spells.head?_ne)
  have performed (path : Path) : perform surroundings path (.decode (some width) digits) { machine } =
      printQuantities (some width) segmentation.bytes { machine } := by
    rw [perform, Hex.read_of_spells spells]
    rfl
  exact (run_of_read (read_decode width plain) unset).trans
    (conclude_printQuantities segmentation (performed _))

theorem run_dump (segmentation : Segmentation width) {file : String} {strings : List String}
    (read : machine.disk.files.read (Path.ofText file) = .ok segmentation.bytes)
    (wording : Wording strings [file]) :
    run surroundings (["dump", "--width", widthText width] ++ strings) machine =
      (quantityOutcome segmentation, machine) := by
  have performed (path : Path) : perform surroundings path (.dump (some width) file) { machine } =
      printQuantities (some width) segmentation.bytes { machine } := by
    rw [perform, EStateM.get_bind]
    dsimp only
    rw [read]
    rfl
  exact (run_of_read (read_dump width wording) unset).trans
    (conclude_printQuantities segmentation (performed _))

/-- Integers are written as one line of hexadecimal text each. -/
theorem run_encode (width : Width) {values : List Int} {texts : List String} (given : values ≠ [])
    (numerals : texts.map Numeral.read = values.map some) :
    run surroundings (["encode", "--width", widthText width, "--"] ++ texts) machine =
      (Shelf.success (String.join (values.map fun value =>
        Hex.render (encode width value) ++ "\n")), machine) := by
  have performed (path : Path) : perform surroundings path (.encode width values) { machine } =
      .ok () { machine := machine
               printed := "" ++ String.join (values.map fun value =>
                 Hex.render (encode width value) ++ "\n") } := by
    rw [perform, printLines_run, List.map_map]
    rfl
  have concluded := conclude_ok (performed (storePath none surroundings machine))
  rw [String.empty_append] at concluded
  exact (run_of_read (read_encode width given numerals (.divided texts)) unset).trans concluded

/-- The lines that are written are read together, as the integers reduced by the width. -/
theorem run_decode_encode (width : Width) (values : List Int) :
    run surroundings ["decode", "--width", widthText width,
        String.join (values.map fun value => Hex.render (encode width value))] machine =
      (Shelf.success (String.join (values.map fun value =>
        toString (value % 2 ^ width.bits) ++ "\n")), machine) := by
  obtain ⟨spellings, written, reduced⟩ := exists_spellings width values
  -- the joined lines are a hexadecimal spelling of the bytes of these spellings
  have spells := Hex.spells_join (values.map (encode width))
  rw [List.map_map, ← List.flatMap_def, ← written, ← Segmentation.bytes_ofSpellings] at spells
  have remainders : (spellings.map fun spelling => toString spelling.value ++ "\n") =
      values.map fun value => toString (value % 2 ^ width.bits) ++ "\n" := by
    have shown := congrArg (List.map fun number : Nat => toString number ++ "\n") reduced
    rw [List.map_map, List.map_map] at shown
    refine shown.trans (List.map_congr_left fun value _ => ?_)
    rw [← natCast_reduce]
    rfl
  refine (run_decode unset _ spells).trans ?_
  rw [Shelf.success, ← remainders]
  rfl

end Runs

/-- **Quantities on command lines**, for either width and where the store has no settings.  Every
integer of at most 4300 digits has a numeral.  The lines that are printed for integers, joined, are
read as these integers modulo two to the power of the width.  And bytes are read alike from any
hexadecimal text that spells them and from any file that holds them: the values of the complete units
are printed, and the run succeeds if there is nothing behind these, and reports one line if there is. -/
theorem run_quantities (width : Width) {surroundings : Surroundings} {machine : Machine}
    (unset : machine.disk.files.find
      (Store.settingsPath (storePath none surroundings machine)) = .ok none) :
    (∀ value : Int, (Nat.toDigits 10 value.natAbs).length ≤ 4300 →
        ∃ text, Numeral.write? value = some text ∧ Numeral.read text = some value) ∧
      (∀ (values : List Int) (texts : List String), values ≠ [] →
        texts.map Numeral.read = values.map some →
        ∃ lines : List String, (∀ line ∈ lines, '\n' ∉ line.toList) ∧
          run surroundings (["encode", "--width", toString width.bits, "--"] ++ texts) machine =
            ({ printed := String.join (lines.map fun line => line ++ "\n")
               reported := ""
               ending := .exit 0 }, machine) ∧
          run surroundings ["decode", "--width", toString width.bits, String.join lines] machine =
            ({ printed := String.join (values.map fun value =>
                 toString (value % 2 ^ width.bits) ++ "\n")
               reported := ""
               ending := .exit 0 }, machine)) ∧
      ∀ (bytes : Bytes) (digits file : String) (strings : List String),
        Hex.Spells digits.toList bytes → machine.disk.files.read (Path.ofText file) = .ok bytes →
        Wording strings [file] →
        ∃ (segmentation : Segmentation width) (outcome : Outcome), segmentation.bytes = bytes ∧
          run surroundings ["decode", "--width", toString width.bits, digits] machine =
            (outcome, machine) ∧
          run surroundings (["dump", "--width", toString width.bits] ++ strings) machine =
            (outcome, machine) ∧
          outcome.printed = String.join (segmentation.spellings.map fun spelling =>
            toString spelling.value ++ "\n") ∧
          ((∃ units : List (Spelling width), bytes = units.flatMap Spelling.bytes) →
            outcome.ending = .exit 0 ∧ outcome.reported = "") ∧
          ((¬∃ units : List (Spelling width), bytes = units.flatMap Spelling.bytes) →
            outcome.ending = .exit 1 ∧ ∃ message : String, '\n' ∉ message.toList ∧
              outcome.reported = "vlqdb: " ++ message ++ "\n") := by
  refine ⟨fun value short => ?_, fun values texts given numerals => ?_,
    fun bytes digits file strings spells read wording => ?_⟩
  · exact ⟨_, if_pos short, Numeral.read_of_write? (if_pos short)⟩
  · refine ⟨values.map fun value => Hex.render (encode width value), fun line member => ?_, ?_,
      run_decode_encode unset width values⟩
    · obtain ⟨value, _, rfl⟩ := List.mem_map.mp member
      exact newline_not_mem_render _
    · rw [List.map_map]
      exact run_encode unset width given numerals
  · obtain ⟨segmentation, rfl⟩ := exists_segmentation width bytes
    refine ⟨segmentation, quantityOutcome segmentation, rfl, run_decode unset segmentation spells,
      run_dump unset segmentation read wording, rfl, fun units => ?_, fun noUnits => ?_⟩
    · have complete := (exists_units_iff segmentation).mp units
      have none := (segmentation.failure_eq_none_iff 0).mpr complete
      simp only [quantityOutcome, none, if_pos complete, and_self]
    · have rest := mt (exists_units_iff segmentation).mpr noUnits
      cases failed : segmentation.failure 0 with
      | none => exact absurd ((segmentation.failure_eq_none_iff 0).mp failed) rest
      | some cause =>
          refine ⟨if_neg rest, cause.message, newline_not_mem_message failed, ?_⟩
          simp only [quantityOutcome, failed]

/-- A machine with one file, which holds one quantity of two bytes. -/
def Machine.withQuantity : Machine where
  disk := { files := { workingDirectory := [], nodes := [(["q"], .file [0xD3, 2])] } }

theorem run_quantities_withQuantity :
    (∃ digits, run .plain ["decode", "--width", "32", digits] .withQuantity =
        ({ printed := "300\n4294967295\n", reported := "", ending := .exit 0 }, .withQuantity)) ∧
      ∃ outcome, run .plain ["decode", "--width", "32", "D3 02\t"] .withQuantity =
          (outcome, .withQuantity) ∧
        run .plain ["dump", "--width", "32", "q"] .withQuantity = (outcome, .withQuantity) ∧
        outcome.ending = .exit 0 ∧ outcome.reported = "" := by
  have width : toString Width.bits32.bits = "32" := by decide +kernel
  obtain ⟨_, written, read⟩ := @run_quantities .bits32 .plain .withQuantity rfl
  rw [width] at written read
  constructor
  · obtain ⟨lines, _, _, decoded⟩ := written [300, -1] ["300", "-1"] (List.cons_ne_nil _ _)
      (by decide +kernel)
    have printed : String.join ([300, -1].map fun value : Int =>
        toString (value % 2 ^ Width.bits32.bits) ++ "\n") = "300\n4294967295\n" := by decide +kernel
    rw [printed] at decoded
    exact ⟨_, decoded⟩
  · have spells : Hex.Spells "D3 02\t".toList [0xD3, 2] :=
      .byte rfl rfl (.blank rfl (.byte rfl rfl (.blank rfl .nil)))
    obtain ⟨_, outcome, _, decoded, dumped, _, complete, _⟩ :=
      read [0xD3, 2] _ "q" ["q"] spells rfl (.plain (by decide))
    have unit : ∃ units : List (Spelling .bits32), [0xD3, 2] = units.flatMap Spelling.bytes :=
      ⟨[⟨[0xD3], 2, List.forall_mem_singleton.mpr (by decide), by decide, by decide⟩], rfl⟩
    exact ⟨outcome, decoded, dumped, complete unit⟩

end Septet.CommandLine
