import Septet.Proofs.Database.Records
import Septet.Proofs.Store.Session
import Septet.Proofs.Text.Graphic

/-!
# Lines that describe records

Where every pair of a database files a record under a digest and a number, whether the
digest is that of the record's name or not, the store lists a line for each in the order of
the keys.  A line describes its pair without ambiguity: whatever characters a name has, no
line is that of two filings which differ in the digest, the number, the name or the sizes
of the fields (`Filing.line_eq_iff`), and all its characters are printable ASCII
(`Filing.isPrintable_line`).

A line is taken apart from left to right.  The digest has a fixed length; each of the
other parts has no blank in it and one behind it (`append_blank_inj`); the sizes are as many
as the line has said before, and what stands between two blanks is one of them
(`Filing.eq_of_sizesText`).
-/

set_option autoImplicit false

namespace Septet

/-- A record filed under a digest and a number. -/
structure Filing where
  digest : Digest
  number : Nat
  record : Record

namespace Filing

/-- The pair that a record is filed in. -/
def pair (filing : Filing) : Pair :=
  (Database.keyOf filing.digest filing.number, filing.record.encode)

/-- The sizes of the fields of the record. -/
def sizes (filing : Filing) : List Nat :=
  filing.record.fields.map List.length

/-- The line that describes the filing. -/
def line (filing : Filing) : String :=
  Aspect.lineOf filing.pair.1 filing.number filing.record

theorem show?_pair {filing : Filing} (fits : filing.record.Fits) (small : filing.number < 2 ^ 64) :
    Aspect.show? .line filing.pair = .ok filing.line :=
  -- A filing is an entry under the hash that gives its digest to every name.
  @Entry.show?_pair (fun _ => filing.digest) ⟨filing.number, filing.record⟩ fits small .line

/-! ## Sizes -/

/-- Numbers with a blank between them. -/
def sizesText (sizes : List Nat) : List Char :=
  [' '].intercalate (sizes.map (Nat.toDigits 10))

/-- Sizes are known by their text and by how many they are. -/
theorem eq_of_sizesText {first second : List Nat} (count : first.length = second.length)
    (same : sizesText first = sizesText second) : first = second := by
  have split : ∀ sizes : List Nat, sizes ≠ [] →
      List.splitOn ' ' (sizesText sizes) = sizes.map (Nat.toDigits 10) := by
    intro sizes nonempty
    refine List.splitOn_intercalate ' ' ?_ (mt List.map_eq_nil_iff.mp nonempty)
    intro digits member
    obtain ⟨size, _, rfl⟩ := List.mem_map.mp member
    exact fun blank => absurd (isGraphic_of_mem_toDigits blank) (by decide)
  -- The text of no sizes splits into an empty part, so it is left to the count.
  cases first with
  | nil => exact (List.length_eq_zero_iff.mp count.symm).symm
  | cons size rest =>
      have other : second ≠ [] := List.ne_nil_of_length_eq_add_one count.symm
      have digits := split (size :: rest) (List.cons_ne_nil size rest)
      rw [same, split second other] at digits
      exact (List.map_injective_iff.mpr toDigits_injective digits).symm

theorem isPrintable_sizesText (sizes : List Nat) :
    ∀ character ∈ sizesText sizes, IsPrintable character := by
  have digits (size : Nat) : ∀ character ∈ Nat.toDigits 10 size, IsPrintable character :=
    fun character member => (isGraphic_of_mem_toDigits member).isPrintable
  induction sizes with
  | nil => exact List.forall_mem_nil _
  | cons size rest ih =>
      cases rest with
      | nil =>
          rw [sizesText, List.map_singleton, List.intercalate_singleton]
          exact digits size
      | cons next rest =>
          rw [sizesText, List.map_cons, List.map_cons, List.intercalate_cons_cons]
          refine List.forall_mem_append.mpr ⟨List.forall_mem_append.mpr ⟨digits size, ?_⟩, ih⟩
          exact isPrintable_of_all (by decide)

/-! ## The parts of a line -/

theorem toList_line (filing : Filing) :
    filing.line.toList =
      "record ".toList ++ (Hex.renderChars filing.digest.bytes ++ (" #".toList ++
        (Nat.toDigits 10 filing.number ++ ' ' ::
          (Percent.encodeBytes (Utf8.encode filing.record.name) ++ ' ' :: ("fields=".toList ++
            (Nat.toDigits 10 filing.sizes.length ++ ' ' :: ("sizes=[".toList ++
              (sizesText filing.sizes ++ [']'])))))))) := by
  have digest : filing.pair.1.take Aspect.hashLength = filing.digest.bytes :=
    List.take_left' filing.digest.length_bytes
  simp only [line, Aspect.lineOf, digest, Hex.render, Percent.encode, sizesText, sizes,
    Nat.toString_eq_repr, String.toList_append, String.toList_ofList, String.toList_intercalate,
    Nat.toList_repr, List.map_map, List.length_map, List.append_assoc, Function.comp_def]
  rfl

/-- **A line is that of one digest, number, name and list of sizes.** -/
theorem line_eq_iff {first second : Filing} :
    first.line = second.line ↔
      first.digest = second.digest ∧ first.number = second.number ∧
        first.record.name = second.record.name ∧ first.sizes = second.sizes := by
  constructor
  · intro same
    have characters := congrArg String.toList same
    rw [toList_line, toList_line] at characters
    have digestLength : (Hex.renderChars first.digest.bytes).length =
        (Hex.renderChars second.digest.bytes).length := by
      rw [Hex.length_renderChars, Hex.length_renderChars, first.digest.length_bytes,
        second.digest.length_bytes]
    obtain ⟨digest, characters⟩ :=
      List.append_inj (List.append_cancel_left characters) digestLength
    obtain ⟨number, characters⟩ := append_blank_inj (fun _ => isGraphic_of_mem_toDigits)
      (fun _ => isGraphic_of_mem_toDigits) (List.append_cancel_left characters)
    obtain ⟨name, characters⟩ := append_blank_inj (fun _ => Percent.isGraphic_of_mem_encodeBytes)
      (fun _ => Percent.isGraphic_of_mem_encodeBytes) characters
    obtain ⟨count, characters⟩ := append_blank_inj (fun _ => isGraphic_of_mem_toDigits)
      (fun _ => isGraphic_of_mem_toDigits) (List.append_cancel_left characters)
    have sizes := List.append_cancel_right (List.append_cancel_left characters)
    exact ⟨Digest.eq_of_bytes (Hex.renderChars_injective digest), toDigits_injective number,
      Percent.encodeBytes_encode_inj.mp name, eq_of_sizesText (toDigits_injective count) sizes⟩
  · rintro ⟨digest, number, name, sizes⟩
    apply String.toList_inj.mp
    rw [toList_line, toList_line, digest, number, name, sizes]

/-- A line is printable ASCII. -/
theorem isPrintable_line (filing : Filing) :
    ∀ character ∈ filing.line.toList, IsPrintable character := by
  simp only [toList_line, List.forall_mem_append, List.forall_mem_cons]
  have number (number : Nat) : ∀ character ∈ Nat.toDigits 10 number, IsPrintable character :=
    fun character member => (isGraphic_of_mem_toDigits member).isPrintable
  have blank : IsPrintable ' ' := by decide
  exact ⟨isPrintable_of_all (by decide),
    fun _ member => (Hex.isGraphic_of_mem_renderChars member).isPrintable,
    isPrintable_of_all (by decide), number _, blank,
    fun _ member => (Percent.isGraphic_of_mem_encodeBytes member).isPrintable, blank,
    isPrintable_of_all (by decide), number _, blank, isPrintable_of_all (by decide),
    isPrintable_sizesText _, by decide, List.forall_mem_nil _⟩

end Filing

namespace Store

variable {session : Session} {opening : Opening} {filings : List Filing}

/-- **Every filing is listed by a line of its own**, in the order of the keys, and no line can be taken
for that of another digest, number, name or list of sizes: whatever characters the names have, the
lines are printable ASCII and tell all four. -/
theorem list_lines_unambiguous (ready : session.Ready opening)
    (holds : (session.database opening).pairs = filings.map Filing.pair)
    (shaped : ∀ filing ∈ filings, filing.number < 2 ^ 64 ∧ filing.record.Fits) :
    list .line session = .ok ⟨filings.map Filing.line, none⟩ session ∧
      (∀ first second : Filing, first.line = second.line ↔
        first.digest = second.digest ∧ first.number = second.number ∧
          first.record.name = second.record.name ∧ first.sizes = second.sizes) ∧
      ∀ filing : Filing, ∀ character ∈ filing.line.toList, IsPrintable character := by
  refine ⟨?_, fun first second => Filing.line_eq_iff, Filing.isPrintable_line⟩
  have listed : Listing.ofPairs .line (filings.map Filing.pair) = ⟨filings.map Filing.line, none⟩ :=
    Listing.ofPairs_map fun filing member =>
      Filing.show?_pair (shaped filing member).2 (shaped filing member).1
  rw [list_run ready, Database.list, holds, listed]

/-- Filings whose names are empty, hold a line break, and look like the end of a line. -/
def curious : List Filing :=
  [⟨.zeros, 0, ⟨"", []⟩⟩, ⟨.zeros, 1, ⟨"a\n#%[", [[1, 2], []]⟩⟩,
    ⟨.zeros, 2, ⟨"b sizes=[]", [[]]⟩⟩]

def curiousLines : List String :=
  ["record 00000000000000000000000000000000 #0  fields=0 sizes=[]",
    "record 00000000000000000000000000000000 #1 a%0A%23%25%5B fields=2 sizes=[2 0]",
    "record 00000000000000000000000000000000 #2 b%20sizes%3D%5B%5D fields=1 sizes=[0]"]

theorem list_lines_unambiguous_curious :
    list .line (Session.holding (Database.empty.insertAll (curious.map Filing.pair))) =
      .ok ⟨curiousLines, none⟩
        (Session.holding (Database.empty.insertAll (curious.map Filing.pair))) := by
  have holds : (Database.empty.insertAll (curious.map Filing.pair)).pairs =
      curious.map Filing.pair := by decide +kernel
  have listed := (list_lines_unambiguous (Session.ready_holding _) holds (by decide +kernel)).1
  have lines : curious.map Filing.line = curiousLines := by decide +kernel
  rwa [lines] at listed

end Store

end Septet
