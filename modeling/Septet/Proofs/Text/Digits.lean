import Septet.Proofs.Text.Graphic
import Septet.Text.Numeral

/-!
# Digits that are read

Hexadecimal text spells bytes when every byte stands as two digits of either case, one for
each half, and nothing but blanks stands between bytes (`Hex.Spells`).  Every such spelling
is read as its bytes (`Hex.read_of_spells`), spellings that follow each other spell what
they spell together (`Hex.Spells.append`), and the digits that are written are a spelling
(`Hex.spells_renderChars`).

The numeral that is written of an integer is read as the integer
(`Numeral.read_of_write?`), and it is written if the integer has few enough digits.
-/

set_option autoImplicit false

namespace Septet

/-! ## Hexadecimal spellings -/

namespace Hex

/-- Characters that spell bytes: two digits for every byte, and blanks between bytes. -/
inductive Spells : List Char → Bytes → Prop where
  | nil : Spells [] []
  | blank {character : Char} {characters : List Char} {bytes : Bytes}
      (blank : isBlank character = true) (behind : Spells characters bytes) :
      Spells (character :: characters) bytes
  | byte {first second : Char} {characters : List Char} {byte : UInt8} {bytes : Bytes}
      (high : value? first = some (byte.toNat / 16)) (low : value? second = some (byte.toNat % 16))
      (behind : Spells characters bytes) :
      Spells (first :: second :: characters) (byte :: bytes)

theorem isBlank_of_lt {character : Char} (above : 32 < character.toNat) :
    isBlank character = false := by
  simp only [isBlank, Bool.or_eq_false_iff, beq_eq_false_iff_ne, Bool.and_eq_false_iff,
    decide_eq_false_iff_not]
  omega

/-- A digit is a character of ASCII, and neither a blank nor a hyphen. -/
theorem code_of_value? {character : Char} {value : Nat} (digit : value? character = some value) :
    character.toNat < 128 ∧ isBlank character = false ∧ character ≠ '-' := by
  have range : 48 ≤ character.toNat ∧ character.toNat ≤ 102 := by
    simp only [value?] at digit
    split at digit
    · omega
    · split at digit
      · omega
      · split at digit
        · omega
        · cases digit
  refine ⟨by omega, isBlank_of_lt (by omega), ?_⟩
  rintro rfl
  exact absurd range.1 (by decide)

theorem code_of_isBlank {character : Char} (blank : isBlank character = true) :
    character.toNat < 128 ∧ character ≠ '-' := by
  simp only [isBlank, Bool.or_eq_true, beq_iff_eq, Bool.and_eq_true, decide_eq_true_eq] at blank
  refine ⟨by omega, ?_⟩
  rintro rfl
  exact absurd blank (by decide)

variable {characters : List Char} {bytes : Bytes}

/-- **A spelling is read as its bytes**, at any position. -/
theorem readPairs_of_spells (spells : Spells characters bytes) :
    ∀ position, readPairs characters position = .ok bytes := by
  induction spells with
  | nil => exact fun _ => rfl
  | blank blank _ ih =>
      intro position
      rw [readPairs, if_pos blank]
      exact ih _
  | @byte first second characters byte bytes high low _ ih =>
      intro position
      have whole : UInt8.ofNat (16 * (byte.toNat / 16) + byte.toNat % 16) = byte := by
        rw [Nat.div_add_mod, UInt8.ofNat_toNat]
      obtain ⟨_, digit, _⟩ := code_of_value? high
      simp only [readPairs, digit, high, low, ih, whole, Bool.false_eq_true, if_false]

theorem Spells.lt_of_mem (spells : Spells characters bytes) :
    ∀ character ∈ characters, character.toNat < 128 := by
  induction spells with
  | nil => exact List.forall_mem_nil _
  | blank blank _ ih => exact List.forall_mem_cons.mpr ⟨(code_of_isBlank blank).1, ih⟩
  | byte high low _ ih =>
      exact List.forall_mem_cons.mpr
        ⟨(code_of_value? high).1, List.forall_mem_cons.mpr ⟨(code_of_value? low).1, ih⟩⟩

theorem read_of_spells {text : String} (spells : Spells text.toList bytes) :
    read text = .ok bytes := by
  have ascii : text.toList.findIdx? (fun character => 128 ≤ character.toNat) = none := by
    refine List.findIdx?_eq_none_iff.mpr fun character member => ?_
    exact decide_eq_false (Nat.not_le.mpr (spells.lt_of_mem character member))
  rw [read, readChars, ascii]
  exact readPairs_of_spells spells 0

/-- A spelling does not begin with a hyphen. -/
theorem Spells.head?_ne (spells : Spells characters bytes) : characters.head? ≠ some '-' := by
  intro hyphen
  cases spells with
  | nil => cases hyphen
  | blank blank _ => exact (code_of_isBlank blank).2 (Option.some.inj hyphen)
  | byte high _ _ => exact (code_of_value? high).2.2 (Option.some.inj hyphen)

theorem Spells.append {others : List Char} {more : Bytes} (spells : Spells characters bytes)
    (behind : Spells others more) : Spells (characters ++ others) (bytes ++ more) := by
  induction spells with
  | nil => exact behind
  | blank blank _ ih => exact .blank blank ih
  | byte high low _ ih => exact .byte high low ih

theorem spells_renderChars (bytes : Bytes) : Spells (renderChars bytes) bytes := by
  induction bytes with
  | nil => exact .nil
  | cons byte rest ih =>
      exact .byte (value?_digit _ (high_lt byte)) (value?_digit _ (low_lt byte)) ih

/-- The digits of byte strings one after the other spell all of their bytes. -/
theorem spells_join (strings : List Bytes) :
    Spells (String.join (strings.map render)).toList strings.flatten := by
  induction strings with
  | nil => exact .nil
  | cons bytes strings ih =>
      rw [List.map_cons, String.join_cons, String.toList_append, List.flatten_cons, render,
        String.toList_ofList]
      exact (spells_renderChars bytes).append ih

end Hex

/-! ## Numerals -/

namespace Numeral

/-- The digits of ASCII come first among the decimal digits. -/
theorem digit?_of_isDigit {character : Char} (digit : character.isDigit = true) :
    digit? character = some (character.toNat - 48) := by
  obtain ⟨least, most⟩ := Char.isDigit_iff_toNat.mp digit
  have found : (48 ≤ character.toNat && character.toNat < 48 + 10) = true := by
    rw [Bool.and_eq_true, decide_eq_true_eq, decide_eq_true_eq]
    exact ⟨least, Nat.lt_succ_of_le most⟩
  simp only [digit?, zeros, List.find?_cons, found, Option.map_some]

theorem isBlank_of_isDigit {character : Char} (digit : character.isDigit = true) :
    isBlank character = false := by
  have most : character.toNat ≤ 57 := (Char.isDigit_iff_toNat.mp digit).2
  have beyond : ∀ wide ∈ wideBlanks, 57 < wide := by decide
  have narrow : wideBlanks.contains character.toNat = false := by
    rw [List.contains_eq_mem]
    exact decide_eq_false fun member => absurd most (Nat.not_le.mpr (beyond _ member))
  have least : 48 ≤ character.toNat := (Char.isDigit_iff_toNat.mp digit).1
  rw [isBlank, Hex.isBlank_of_lt (Nat.lt_of_lt_of_le (by decide) least), narrow, Bool.false_or]

/-- What has no blanks has none at its ends. -/
theorem trim_eq_self {characters : List Char}
    (marks : ∀ character ∈ characters, isBlank character = false) : trim characters = characters := by
  have kept : ∀ list : List Char, (∀ character ∈ list, isBlank character = false) →
      list.dropWhile isBlank = list := by
    intro list marks
    cases list with
    | nil => rfl
    | cons first rest =>
        have mark := marks first List.mem_cons_self
        exact List.dropWhile_cons_of_neg (by rw [mark]; exact Bool.false_ne_true)
  have reversed : ∀ character ∈ characters.reverse, isBlank character = false :=
    fun character member => marks character (List.mem_reverse.mp member)
  rw [trim, kept _ marks, kept _ reversed, List.reverse_reverse]

theorem readDigits_of_isDigit (digits : List Char) :
    digits ≠ [] → (∀ digit ∈ digits, digit.isDigit = true) →
      readDigits digits = some (digits.map fun digit => digit.toNat - 48) := by
  induction digits with
  | nil => exact fun empty => absurd rfl empty
  | cons first rest ih =>
      intro _ all
      obtain ⟨here, later⟩ := List.forall_mem_cons.mp all
      cases rest with
      | nil =>
          rw [readDigits, digit?_of_isDigit here]
          rfl
      | cons second rest =>
          have digit : second.isDigit = true := later second List.mem_cons_self
          have line : ∀ more : List Char, second :: rest ≠ '_' :: more := by
            rintro more same
            cases same
            cases digit
          have others := ih (List.cons_ne_nil _ _) later
          rw [readDigits, digit?_of_isDigit here, others]
          · rfl
          · exact List.cons_ne_nil _ _
          · exact line

theorem isDigit_of_mem_toDigits {value : Nat} {digit : Char}
    (member : digit ∈ Nat.toDigits 10 value) : digit.isDigit = true :=
  Nat.isDigit_of_mem_toDigits (by decide) (by decide) member

/-- The digits of a natural number are read as the number. -/
theorem readUnsigned_toDigits {value : Nat}
    (short : (Nat.toDigits 10 value).length ≤ digitLimit) :
    readUnsigned (Nat.toDigits 10 value) = some value := by
  have digits : ∀ digit ∈ Nat.toDigits 10 value, digit.isDigit = true :=
    fun _ member => isDigit_of_mem_toDigits member
  have some : Nat.toDigits 10 value ≠ [] := Nat.toDigits_ne_nil
  have total : ofDigits ((Nat.toDigits 10 value).map fun digit => digit.toNat - 48) = value := by
    rw [ofDigits, List.foldl_map]
    exact Nat.ofDigitChars_ten_toDigits
  rw [readUnsigned, readDigits_of_isDigit _ some digits]
  simp only [bind, Option.bind, List.length_map, if_pos short, total]

/-- **The numeral of an integer is read as the integer.** -/
theorem read_of_write? {value : Int} {text : String} (written : write? value = some text) :
    read text = some value := by
  simp only [write?] at written
  split at written
  · next short =>
      cases written
      have marks : ∀ digit ∈ Nat.toDigits 10 value.natAbs, isBlank digit = false :=
        fun _ member => isBlank_of_isDigit (isDigit_of_mem_toDigits member)
      by_cases negative : value < 0
      · have marksAll : ∀ character ∈ '-' :: Nat.toDigits 10 value.natAbs,
            isBlank character = false := List.forall_mem_cons.mpr ⟨by decide, marks⟩
        have characters : ("-" ++ String.ofList (Nat.toDigits 10 value.natAbs)).toList =
            '-' :: Nat.toDigits 10 value.natAbs := by
          rw [String.toList_append, String.toList_ofList, String.toList_ofList]
          rfl
        rw [if_pos negative, read, readChars, characters, trim_eq_self marksAll]
        simp only [readUnsigned_toDigits short]
        have opposite : -(value.natAbs : Int) = value := by omega
        exact congrArg some opposite
      · rw [if_neg negative, String.empty_append, read, readChars, String.toList_ofList,
          trim_eq_self marks]
        have positive : (value.natAbs : Int) = value := by omega
        split
        · next rest same =>
            have digit : '-'.isDigit = true :=
              isDigit_of_mem_toDigits (by rw [same]; exact List.mem_cons_self)
            exact absurd digit (by decide)
        · next rest same =>
            have digit : '+'.isDigit = true :=
              isDigit_of_mem_toDigits (by rw [same]; exact List.mem_cons_self)
            exact absurd digit (by decide)
        · rw [readUnsigned_toDigits short]
          exact congrArg some positive
  · cases written

end Numeral

end Septet
