import Mathlib.Data.List.Basic
import Septet.Text.Hex
import Septet.Text.Percent
import Septet.Proofs.Text.Utf8Strict

/-!
# Spellings without blanks

What is shown of bytes, of texts and of numbers is put together from three spellings:
hexadecimal, percent-encoding and decimal.  Each of them tells what it is the spelling of
(`Hex.renderChars_injective`, `Percent.encodeBytes_injective`, `toDigits_injective`), and
each is made of characters that leave a mark on paper (`IsGraphic`).  So it ends where a
blank begins, and what is put together from such spellings with blanks between them can be
taken apart again.

Hexadecimal text tells its bytes because it is read back (`Hex.readPairs_renderChars`).
Percent-encoding tells them because a plain byte is never written as a percent sign, so the
first character of a spelling decides where the spelling of the first byte ends
(`Percent.encodeByte_append_inj`).
-/

set_option autoImplicit false

namespace Septet

/-- A character of ASCII that leaves a mark on paper: neither a control nor the blank. -/
def IsGraphic (character : Char) : Prop :=
  0x21 ≤ character.toNat ∧ character.toNat ≤ 0x7E

instance : DecidablePred IsGraphic := fun character =>
  inferInstanceAs (Decidable (0x21 ≤ character.toNat ∧ character.toNat ≤ 0x7E))

/-- A printable character of ASCII: one that leaves a mark, or the blank. -/
def IsPrintable (character : Char) : Prop :=
  0x20 ≤ character.toNat ∧ character.toNat ≤ 0x7E

instance : DecidablePred IsPrintable := fun character =>
  inferInstanceAs (Decidable (0x20 ≤ character.toNat ∧ character.toNat ≤ 0x7E))

theorem IsGraphic.isPrintable {character : Char} (graphic : IsGraphic character) :
    IsPrintable character :=
  ⟨Nat.le_of_succ_le graphic.1, graphic.2⟩

/-- The characters of a fixed text are judged one by one. -/
theorem isPrintable_of_all {characters : List Char}
    (judged : (characters.all fun character => decide (IsPrintable character)) = true) :
    ∀ character ∈ characters, IsPrintable character :=
  fun character member => of_decide_eq_true (List.all_eq_true.mp judged character member)

/-- Characters that leave a mark end at the first blank behind them. -/
theorem append_blank_inj {first second rest others : List Char}
    (graphic : ∀ character ∈ first, IsGraphic character)
    (alsoGraphic : ∀ character ∈ second, IsGraphic character)
    (same : first ++ ' ' :: rest = second ++ ' ' :: others) : first = second ∧ rest = others := by
  have taken : ∀ part rest : List Char, (∀ character ∈ part, IsGraphic character) →
      (part ++ ' ' :: rest).takeWhile (fun character => decide (IsGraphic character)) = part := by
    intro part rest marks
    rw [List.takeWhile_append_of_pos fun character member => decide_eq_true (marks character member),
      List.takeWhile_cons_of_neg (by decide), List.append_nil]
  have parts : first = second := by
    rw [← taken first rest graphic, same, taken second others alsoGraphic]
  subst parts
  exact ⟨rfl, (List.cons.inj (List.append_cancel_left same)).2⟩

/-! ## Halves of bytes -/

section Halves

variable (byte : UInt8)

theorem high_lt : byte.toNat / 16 < 16 := by
  have := byte.toNat_lt
  omega

theorem low_lt : byte.toNat % 16 < 16 :=
  Nat.mod_lt _ (by decide)

variable {byte} in
/-- A byte is known by its halves. -/
theorem eq_of_halves {other : UInt8} (high : byte.toNat / 16 = other.toNat / 16)
    (low : byte.toNat % 16 = other.toNat % 16) : byte = other :=
  UInt8.toNat_inj.mp (by omega)

end Halves

/-! ## Hexadecimal text -/

namespace Hex

theorem value?_digit : ∀ value < 16, value? (digit value) = some value := by
  decide

theorem isBlank_digit : ∀ value < 16, isBlank (digit value) = false := by
  decide

theorem isGraphic_digit : ∀ value < 16, IsGraphic (digit value) := by
  decide

theorem isGraphic_of_mem_renderChars {bytes : Bytes} {character : Char}
    (member : character ∈ renderChars bytes) : IsGraphic character := by
  obtain ⟨byte, _, inside⟩ := List.mem_flatMap.mp member
  rcases List.mem_pair.mp inside with rfl | rfl
  · exact isGraphic_digit _ (high_lt byte)
  · exact isGraphic_digit _ (low_lt byte)

theorem length_renderChars (bytes : Bytes) : (renderChars bytes).length = 2 * bytes.length := by
  induction bytes with
  | nil => rfl
  | cons byte rest ih =>
      rw [renderChars] at ih
      simp only [renderChars, List.flatMap_cons, List.length_append, renderByte, List.length_cons,
        List.length_nil, ih]
      omega

/-- **Bytes are read back from their digits**, at any position. -/
theorem readPairs_renderChars (bytes : Bytes) :
    ∀ position, readPairs (renderChars bytes) position = .ok bytes := by
  induction bytes with
  | nil => exact fun _ => rfl
  | cons byte rest ih =>
      intro position
      have whole : UInt8.ofNat (16 * (byte.toNat / 16) + byte.toNat % 16) = byte := by
        rw [Nat.div_add_mod, UInt8.ofNat_toNat]
      have digits : renderChars (byte :: rest) =
          digit (byte.toNat / 16) :: digit (byte.toNat % 16) :: renderChars rest := rfl
      simp only [digits, readPairs, isBlank_digit _ (high_lt byte), value?_digit _ (high_lt byte),
        value?_digit _ (low_lt byte), ih, whole, Bool.false_eq_true, if_false]

theorem renderChars_injective : Function.Injective renderChars := by
  intro first second same
  have read := readPairs_renderChars first 0
  rw [same, readPairs_renderChars second 0] at read
  exact (Except.ok.inj read).symm

end Hex

/-! ## Percent-encoding -/

namespace Percent

variable {byte other : UInt8}

theorem digit_inj : ∀ value < 16, ∀ other < 16, digit value = digit other → value = other := by
  decide

theorem isGraphic_digit : ∀ value < 16, IsGraphic (digit value) := by
  decide

/-- A byte that stands for itself leaves a mark and is no percent sign. -/
theorem code_of_isPlain (plain : isPlain byte = true) :
    0x21 ≤ byte.toNat ∧ byte.toNat ≤ 0x7E ∧ byte.toNat ≠ 0x25 := by
  simp only [isPlain, Bool.or_eq_true, Bool.and_eq_true, decide_eq_true_eq, beq_iff_eq] at plain
  omega

theorem toNat_ofNat_toNat (byte : UInt8) : (Char.ofNat byte.toNat).toNat = byte.toNat :=
  Utf8.toNat_ofNat (.inl (Nat.lt_trans byte.toNat_lt (by decide)))

theorem isGraphic_of_mem_encodeByte {character : Char} (member : character ∈ encodeByte byte) :
    IsGraphic character := by
  rw [encodeByte] at member
  split at member
  · next plain =>
      obtain ⟨least, most, _⟩ := code_of_isPlain plain
      rw [List.mem_singleton.mp member, IsGraphic, toNat_ofNat_toNat]
      exact ⟨least, most⟩
  · rcases List.mem_cons.mp member with rfl | behind
    · decide
    · rcases List.mem_pair.mp behind with rfl | rfl
      · exact isGraphic_digit _ (high_lt byte)
      · exact isGraphic_digit _ (low_lt byte)

theorem isGraphic_of_mem_encodeBytes {bytes : Bytes} {character : Char}
    (member : character ∈ encodeBytes bytes) : IsGraphic character := by
  obtain ⟨_, _, inside⟩ := List.mem_flatMap.mp member
  exact isGraphic_of_mem_encodeByte inside

theorem ofNat_toNat_ne_percent (plain : isPlain byte = true) : Char.ofNat byte.toNat ≠ '%' := by
  intro same
  have code := congrArg Char.toNat same
  rw [toNat_ofNat_toNat] at code
  exact (code_of_isPlain plain).2.2 code

/-- **The spelling of a byte is known from what begins with it**, and so is what comes behind. -/
theorem encodeByte_append_inj {rest others : List Char}
    (same : encodeByte byte ++ rest = encodeByte other ++ others) : byte = other ∧ rest = others := by
  -- A percent sign in front decides between the two forms, as no plain byte is one.
  by_cases plain : isPlain byte = true <;> by_cases otherPlain : isPlain other = true
  · rw [encodeByte, encodeByte, if_pos plain, if_pos otherPlain] at same
    obtain ⟨first, behind⟩ := List.cons.inj same
    have code := congrArg Char.toNat first
    rw [toNat_ofNat_toNat, toNat_ofNat_toNat] at code
    exact ⟨UInt8.toNat_inj.mp code, behind⟩
  · rw [encodeByte, encodeByte, if_pos plain, if_neg otherPlain] at same
    exact absurd (List.cons.inj same).1 (ofNat_toNat_ne_percent plain)
  · rw [encodeByte, encodeByte, if_neg plain, if_pos otherPlain] at same
    exact absurd (List.cons.inj same).1.symm (ofNat_toNat_ne_percent otherPlain)
  · rw [encodeByte, encodeByte, if_neg plain, if_neg otherPlain] at same
    obtain ⟨_, digits⟩ := List.cons.inj same
    obtain ⟨high, lower⟩ := List.cons.inj digits
    obtain ⟨low, behind⟩ := List.cons.inj lower
    exact ⟨eq_of_halves (digit_inj _ (high_lt byte) _ (high_lt other) high)
      (digit_inj _ (low_lt byte) _ (low_lt other) low), behind⟩

theorem encodeByte_ne_nil (byte : UInt8) : encodeByte byte ≠ [] := by
  rw [encodeByte]
  split <;> exact List.cons_ne_nil _ _

theorem encodeBytes_injective : Function.Injective encodeBytes := by
  intro first
  induction first with
  | nil =>
      intro second same
      cases second with
      | nil => rfl
      | cons byte rest => exact absurd (List.append_eq_nil_iff.mp same.symm).1 (encodeByte_ne_nil byte)
  | cons byte rest ih =>
      intro second same
      cases second with
      | nil => exact absurd (List.append_eq_nil_iff.mp same).1 (encodeByte_ne_nil byte)
      | cons other others =>
          obtain ⟨rfl, behind⟩ := encodeByte_append_inj same
          rw [ih behind]

/-- A text is known by the percent-encoding of its bytes. -/
theorem encodeBytes_encode_inj {text other : String} :
    encodeBytes (Utf8.encode text) = encodeBytes (Utf8.encode other) ↔ text = other := by
  refine ⟨fun same => ?_, fun same => same ▸ rfl⟩
  have read := Utf8.decode_encode text
  rw [encodeBytes_injective same, Utf8.decode_encode] at read
  exact (Except.ok.inj read).symm

end Percent

/-! ## Decimals -/

theorem toDigits_injective : Function.Injective (Nat.toDigits 10) := by
  intro first second same
  calc
    first = Nat.ofDigitChars 10 (Nat.toDigits 10 first) 0 := Nat.ofDigitChars_ten_toDigits.symm
    _ = Nat.ofDigitChars 10 (Nat.toDigits 10 second) 0 := by rw [same]
    _ = second := Nat.ofDigitChars_ten_toDigits

theorem isGraphic_of_mem_toDigits {number : Nat} {character : Char}
    (member : character ∈ Nat.toDigits 10 number) : IsGraphic character := by
  have digit := Nat.isDigit_of_mem_toDigits (by decide) (by decide) member
  rw [Char.isDigit_iff_toNat] at digit
  exact ⟨Nat.le_trans (by decide) digit.1, Nat.le_trans digit.2 (by decide)⟩

end Septet
