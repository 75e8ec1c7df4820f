import Mathlib.Data.List.Induction
import Septet.Options.Basic
import Septet.Proofs.Running

/-!
# Options and the calls that set them

Knobs are set in place, one call after the other, and a call may fail.  A failing call is
over before it changes anything, although setting the manifest size may set the batch size
on its way (`setInPlace_eq`).

A call leaves a value in its own knob if the knob takes it (`taken?`), and a negative
manifest size leaves one in the batch size too; these are all the traces of a call
(`Assignment.trace?`).  Whatever calls have been made, a knob holds the last trace that one
of them has left in it, or what it held before (`get_afterAll`).  So sizes that are set to
integers never fall below their least values (`Whole.afterAll`).
-/

set_option autoImplicit false

namespace Septet.Options

/-! ## Setting in place -/

/-- Something that is done to options, and may fail. -/
abbrev OptionsM := EStateM OptionError Options

def setBatchSizeInPlace (value : Value) : OptionsM Unit := do
  let size ← MonadExcept.ofExcept (readSize value)
  let kept := if size.lessThan 0 then .int unlimitedBatchSize else size
  modify fun options => { options with maxBatchSize := kept }

/-- Lifts the limit on batches before it changes the manifest size. -/
def setManifestSizeInPlace (value : Value) : OptionsM Unit := do
  let size ← MonadExcept.ofExcept (readSize value)
  if size.lessThan 0 then do
    setBatchSizeInPlace (.int (-1))
    modify fun options => { options with maxManifestSize := .int (-1) }
  else modify fun options => { options with maxManifestSize := size }

/-- Sets a knob, one change after the other. -/
def setInPlace : Knob → Value → OptionsM Unit
  | .free knob, value => modify fun options => options.setFree knob value
  | .compression, value => do
      let compression ← MonadExcept.ofExcept (readCompression value)
      modify fun options => { options with compression }
  | .maxBatchSize, value => setBatchSizeInPlace value
  | .maxManifestSize, value => setManifestSizeInPlace value

variable {options : Options} {value : Value}

theorem setBatchSizeInPlace_ok {size : Number} (read : readSize value = .ok size) :
    setBatchSizeInPlace value options = .ok () (options.setBatchSize size) := by
  rw [setBatchSizeInPlace, read]
  rfl

theorem setManifestSizeInPlace_ok {size : Number} (read : readSize value = .ok size) :
    setManifestSizeInPlace value options = .ok () (options.setManifestSize size) := by
  rw [setManifestSizeInPlace, read, setManifestSize]
  cases negative : size.lessThan 0 with
  | true =>
      have lifted : setBatchSizeInPlace (.int (-1)) options =
          .ok () (options.setBatchSize (.int (-1))) := setBatchSizeInPlace_ok rfl
      refine (EStateM.bind_ok rfl).trans ?_
      rw [if_pos negative, EStateM.bind_ok lifted]
      rfl
  | false =>
      refine (EStateM.bind_ok rfl).trans ?_
      rw [if_neg (by rw [negative]; exact Bool.false_ne_true)]
      rfl

/-- **Setting a knob in place sets it or changes nothing at all.** -/
theorem setInPlace_eq (knob : Knob) (value : Value) (options : Options) :
    setInPlace knob value options =
      match options.set knob value with
      | .ok after => .ok () after
      | .error cause => .error cause options := by
  cases knob with
  | free knob => rfl
  | compression =>
      rw [setInPlace, set]
      cases readCompression value <;> rfl
  | maxBatchSize =>
      rw [setInPlace, set]
      cases read : readSize value with
      | ok size => exact setBatchSizeInPlace_ok read
      | error cause =>
          rw [setBatchSizeInPlace, read]
          rfl
  | maxManifestSize =>
      rw [setInPlace, set]
      cases read : readSize value with
      | ok size => exact setManifestSizeInPlace_ok read
      | error cause =>
          rw [setManifestSizeInPlace, read]
          rfl

/-! ## What knobs take -/

/-- What a knob holds after it has been set to a value, if it takes the value. -/
def taken? : Knob → Value → Option Value
  | .free _, value => some value
  | .compression, .compression compression => some (.compression compression)
  | .compression, .text name =>
      if name = "none" then some (.compression .none)
      else if name = "snappy" then some (.compression .snappy)
      else none
  | .compression, _ => none
  | .maxBatchSize, value =>
      value.number?.map fun size => if size.lessThan 0 then .int 2147483647 else value
  | .maxManifestSize, value =>
      value.number?.map fun size => if size.lessThan 0 then .int (-1) else value

end Options

/-- A call that sets a knob to a value. -/
structure Assignment where
  knob : Knob
  value : Value

namespace Assignment

/-- Whether a call sets the manifest size to a negative value. -/
def liftsLimit (assignment : Assignment) : Bool :=
  assignment.knob = .maxManifestSize &&
    assignment.value.number?.any fun size => size.lessThan 0

/-- What a call leaves in a knob, if it leaves anything there. -/
def trace? (knob : Knob) (assignment : Assignment) : Option Value :=
  if assignment.knob = knob then Options.taken? knob assignment.value
  else if knob = .maxBatchSize ∧ assignment.liftsLimit then some (.int 2147483647)
  else none

end Assignment

namespace Options

variable {options : Options} {knob : Knob} {value : Value}

/-! ## One call -/

/-- The options after a call, whether it has failed or not. -/
def after (options : Options) (assignment : Assignment) : Options :=
  match setInPlace assignment.knob assignment.value options with
  | .ok _ changed => changed
  | .error _ left => left

theorem number?_ofNumber {size : Number} (number : value.number? = some size) :
    Value.ofNumber size = value := by
  cases value <;> cases number <;> rfl

theorem readSize_of_number? {size : Number} (number : value.number? = some size) :
    readSize value = .ok size := by
  rw [readSize, number]

theorem get_setFree (options : Options) (free : FreeKnob) (value : Value) (knob : Knob) :
    (options.setFree free value).get knob = if .free free = knob then value else options.get knob := by
  cases knob with
  | free other =>
      by_cases same : other = free
      · subst same
        simp only [get, setFree, if_true]
      · have different : ¬Knob.free free = .free other := fun eq => same (Knob.free.inj eq).symm
        simp only [get, setFree, if_neg same, if_neg different]
  | compression => rfl
  | maxBatchSize => rfl
  | maxManifestSize => rfl

theorem get_setBatchSize (options : Options) (size : Number) (knob : Knob) :
    (options.setBatchSize size).get knob =
      if .maxBatchSize = knob then
        if size.lessThan 0 then .int 2147483647 else .ofNumber size
      else options.get knob := by
  cases knob with
  | maxBatchSize =>
      simp only [get, setBatchSize, if_true]
      split <;> rfl
  | free _ => rfl
  | compression => rfl
  | maxManifestSize => rfl

/-- A manifest size shows in the manifest size, and in the batch size if it is negative. -/
theorem get_setManifestSize (options : Options) (size : Number) (knob : Knob) :
    (options.setManifestSize size).get knob =
      if .maxManifestSize = knob then if size.lessThan 0 then .int (-1) else .ofNumber size
      else if knob = .maxBatchSize ∧ size.lessThan 0 = true then .int 2147483647
      else options.get knob := by
  cases negative : size.lessThan 0 <;> cases knob <;> simp [setManifestSize, negative, get] <;> rfl

/-- A compression is read from itself and from its name. -/
theorem readCompression_eq (value : Value) :
    (∃ compression, readCompression value = .ok compression ∧
        taken? .compression value = some (.compression compression)) ∨
      (∃ cause, readCompression value = .error cause) ∧ taken? .compression value = none := by
  cases value with
  | compression compression => exact .inl ⟨compression, rfl, rfl⟩
  | text name =>
      by_cases none : name = "none"
      · subst none
        exact .inl ⟨.none, rfl, rfl⟩
      · by_cases snappy : name = "snappy"
        · subst snappy
          exact .inl ⟨.snappy, rfl, rfl⟩
        · have unknown : Compression.ofName? name = Option.none := by
            simp [Compression.ofName?, Compression.all, Compression.name, Ne.symm none,
              Ne.symm snappy]
          refine .inr ⟨⟨.notCompression (.text name), ?_⟩, ?_⟩
          · simp only [readCompression, unknown]
          · simp only [taken?, if_neg none, if_neg snappy]
  | null => exact .inr ⟨⟨.compressionMissing, rfl⟩, rfl⟩
  | _ => exact .inr ⟨⟨.notCompression _, rfl⟩, rfl⟩

/-- **A call leaves its traces, or it fails and there are none.** -/
theorem set_or_refused (options : Options) (assignment : Assignment) :
    (∃ changed, options.set assignment.knob assignment.value = .ok changed ∧
        (taken? assignment.knob assignment.value).isSome = true ∧
        ∀ knob, changed.get knob = (assignment.trace? knob).getD (options.get knob)) ∨
      (∃ cause, options.set assignment.knob assignment.value = .error cause) ∧
        taken? assignment.knob assignment.value = none ∧ assignment.liftsLimit = false := by
  obtain ⟨knob, value⟩ := assignment
  cases knob with
  | free free =>
      refine .inl ⟨options.setFree free value, rfl, rfl, fun knob => ?_⟩
      rw [get_setFree]
      by_cases same : Knob.free free = knob
      · subst same
        simp only [if_true, Assignment.trace?, taken?, Option.getD_some]
      · simp [Assignment.trace?, Assignment.liftsLimit, same]
  | compression =>
      rcases readCompression_eq value with ⟨compression, read, taken⟩ | ⟨⟨cause, refused⟩, none⟩
      · refine .inl ⟨{ options with compression }, ?_, by rw [taken]; rfl, fun knob => ?_⟩
        · rw [set, read]
          rfl
        · cases knob <;> simp [Assignment.trace?, Assignment.liftsLimit, taken, get]
      · refine .inr ⟨⟨cause, ?_⟩, none, rfl⟩
        rw [set, refused]
        rfl
  | maxBatchSize =>
      cases number : value.number? with
      | none =>
          refine .inr ⟨⟨.notComparable "<" value.kind, ?_⟩, by rw [taken?, number]; rfl, rfl⟩
          rw [set, readSize, number]
          rfl
      | some size =>
          refine .inl ⟨options.setBatchSize size, ?_, by rw [taken?, number]; rfl, fun knob => ?_⟩
          · rw [set, readSize_of_number? number]
            rfl
          · rw [get_setBatchSize, number?_ofNumber number]
            by_cases same : Knob.maxBatchSize = knob
            · subst same
              simp only [if_true, Assignment.trace?, taken?, number, Option.map_some,
                Option.getD_some]
            · simp [Assignment.trace?, Assignment.liftsLimit, same]
  | maxManifestSize =>
      cases number : value.number? with
      | none =>
          refine .inr ⟨⟨.notComparable "<" value.kind, ?_⟩, by rw [taken?, number]; rfl, ?_⟩
          · rw [set, readSize, number]
            rfl
          · simp [Assignment.liftsLimit, number]
      | some size =>
          refine .inl ⟨options.setManifestSize size, ?_, by rw [taken?, number]; rfl, fun knob => ?_⟩
          · rw [set, readSize_of_number? number]
            rfl
          · rw [get_setManifestSize, number?_ofNumber number]
            by_cases same : Knob.maxManifestSize = knob
            · subst same
              simp only [if_true, Assignment.trace?, taken?, number, Option.map_some,
                Option.getD_some]
            · simp only [Assignment.trace?, Assignment.liftsLimit, number, same, if_false,
                Option.any_some, decide_true, Bool.true_and]
              split <;> rfl

/-- A call fails, and changes nothing then, if its knob does not take its value. -/
theorem setInPlace_error_iff {left : Options} (assignment : Assignment) :
    (∃ cause, setInPlace assignment.knob assignment.value options = .error cause left) ↔
      taken? assignment.knob assignment.value = none ∧ left = options := by
  rw [setInPlace_eq]
  rcases set_or_refused options assignment with ⟨changed, set, some, _⟩ | ⟨⟨cause, refused⟩, none, _⟩
  · rw [set, ← Option.not_isSome_iff_eq_none, some]
    simp
  · rw [refused, none]
    simp [eq_comm]

/-- A knob holds what a call has left in it, or what it held before. -/
theorem get_after (options : Options) (assignment : Assignment) (knob : Knob) :
    (options.after assignment).get knob = (assignment.trace? knob).getD (options.get knob) := by
  rw [after, setInPlace_eq]
  rcases set_or_refused options assignment with
    ⟨changed, set, _, traces⟩ | ⟨⟨cause, refused⟩, none, kept⟩
  · rw [set]
    exact traces knob
  · have traceless : assignment.trace? knob = Option.none := by
      rw [Assignment.trace?]
      split
      · next same => rw [← same, none]
      · rw [kept, if_neg (by simp)]
    rw [refused, traceless]
    rfl

/-! ## Many calls -/

/-- The options after calls that are made one after the other. -/
def afterAll (options : Options) (history : List Assignment) : Options :=
  history.foldl after options

/-- **A knob holds the last trace that calls have left in it**, or what it held before them. -/
theorem get_afterAll (options : Options) (history : List Assignment) (knob : Knob) :
    (options.afterAll history).get knob =
      ((history.filterMap (Assignment.trace? knob)).getLast?).getD (options.get knob) := by
  induction history using List.reverseRecOn with
  | nil => rfl
  | append_singleton history assignment ih =>
      rw [afterAll, List.foldl_append, List.foldl_cons, List.foldl_nil, ← afterAll, get_after, ih,
        List.filterMap_append]
      cases trace : assignment.trace? knob with
      | none => simp [trace]
      | some held => simp [trace]

/-! ## Sizes that are integers -/

/-- The integer that a value is; truth values count as one and zero. -/
def integer? : Value → Option Int
  | .int value => some value
  | .bool value => some (if value then 1 else 0)
  | _ => none

/-- Both sizes are integers, and neither is less than the least one that counts. -/
structure Whole (options : Options) : Prop where
  batch : ∃ size, integer? (options.get .maxBatchSize) = some size ∧ 0 ≤ size
  manifest : ∃ size, integer? (options.get .maxManifestSize) = some size ∧ -1 ≤ size

theorem whole_default : default.Whole where
  batch := ⟨52000, rfl, by decide⟩
  manifest := ⟨128, rfl, by decide⟩

/-- A number that is no floating-point number is an integer, and is compared as that. -/
theorem exists_integer {size : Number} (number : value.number? = some size)
    (whole : ∀ float, value ≠ .float float) :
    ∃ integer, integer? value = some integer ∧ (size.lessThan 0 = false → 0 ≤ integer) := by
  cases value <;> cases number
  case bool truth => exact ⟨_, rfl, fun _ => by cases truth <;> decide⟩
  case int integer => exact ⟨integer, rfl, fun large => Int.not_lt.mp (of_decide_eq_false large)⟩
  case float float => exact absurd rfl (whole float)

/-- A size that is taken is the one that stands for all negative ones, or not negative. -/
theorem integer_of_taken {least : Value} {size : Number} (number : value.number? = some size)
    (whole : ∀ float, value ≠ .float float) :
    (if size.lessThan 0 then least else value) = least ∨
      ∃ integer, integer? (if size.lessThan 0 then least else value) = some integer ∧
        0 ≤ integer := by
  obtain ⟨integer, same, large⟩ := exists_integer number whole
  cases negative : size.lessThan 0 with
  | true => exact .inl (if_pos rfl)
  | false => exact .inr ⟨integer, same, large negative⟩

/-- What a call with an integer leaves in the batch size is not negative. -/
theorem nonnegative_of_trace? {assignment : Assignment} {held : Value}
    (whole : ∀ float, assignment.value ≠ .float float)
    (trace : assignment.trace? .maxBatchSize = some held) :
    ∃ size, integer? held = some size ∧ 0 ≤ size := by
  rw [Assignment.trace?] at trace
  split at trace
  · obtain ⟨size, number, rfl⟩ := Option.map_eq_some_iff.mp trace
    rcases integer_of_taken number whole with least | large
    · exact ⟨2147483647, by rw [least]; rfl, by decide⟩
    · exact large
  · split at trace <;> cases trace
    exact ⟨2147483647, rfl, by decide⟩

/-- What a call with an integer leaves in the manifest size is at least minus one. -/
theorem negativeOne_le_of_trace? {assignment : Assignment} {held : Value}
    (whole : ∀ float, assignment.value ≠ .float float)
    (trace : assignment.trace? .maxManifestSize = some held) :
    ∃ size, integer? held = some size ∧ -1 ≤ size := by
  rw [Assignment.trace?] at trace
  split at trace
  · obtain ⟨size, number, rfl⟩ := Option.map_eq_some_iff.mp trace
    rcases integer_of_taken number whole with least | ⟨size, same, large⟩
    · exact ⟨-1, by rw [least]; rfl, by decide⟩
    · exact ⟨size, same, Int.le_trans (by decide) large⟩
  · rw [if_neg (by simp)] at trace
    cases trace

/-- Only calls that set a size leave something in one. -/
theorem sets_size_of_trace? {assignment : Assignment} {held : Value}
    (size : knob = .maxBatchSize ∨ knob = .maxManifestSize)
    (trace : assignment.trace? knob = some held) :
    assignment.knob = .maxBatchSize ∨ assignment.knob = .maxManifestSize := by
  rw [Assignment.trace?] at trace
  split at trace
  · next same => exact same ▸ size
  · split at trace
    · next lifted =>
        rw [Assignment.liftsLimit, Bool.and_eq_true, decide_eq_true_eq] at lifted
        exact .inr lifted.2.1
    · cases trace

/-- A call leaves both sizes integers, if what it sets a size to is no floating-point number. -/
theorem Whole.after (whole : options.Whole) {assignment : Assignment}
    (given : assignment.knob = .maxBatchSize ∨ assignment.knob = .maxManifestSize →
      ∀ float, assignment.value ≠ .float float) : (options.after assignment).Whole := by
  constructor
  · rw [get_after]
    cases trace : assignment.trace? .maxBatchSize with
    | none => exact whole.batch
    | some held => exact nonnegative_of_trace? (given (sets_size_of_trace? (.inl rfl) trace)) trace
  · rw [get_after]
    cases trace : assignment.trace? .maxManifestSize with
    | none => exact whole.manifest
    | some held =>
        exact negativeOne_le_of_trace? (given (sets_size_of_trace? (.inr rfl) trace)) trace

/-- **Sizes that are set to integers stay integers that count**, whatever else is set. -/
theorem Whole.afterAll (history : List Assignment) :
    ∀ {options : Options}, options.Whole →
      (∀ assignment ∈ history, assignment.knob = .maxBatchSize ∨
        assignment.knob = .maxManifestSize → ∀ float, assignment.value ≠ .float float) →
      (options.afterAll history).Whole := by
  induction history with
  | nil => exact fun whole _ => whole
  | cons assignment history ih =>
      intro options whole given
      obtain ⟨here, later⟩ := List.forall_mem_cons.mp given
      exact ih (whole.after here) later

/-! ## New options -/

/-- **What knobs hold after any calls on new options.**  A call that fails changes nothing, and it fails
exactly if its knob does not take its value.  Every knob but the batch size holds what its own last
successful call has given it, or its default; the batch size also counts the calls that have set the
manifest size to something negative.  So sizes that are only set to integers never fall below their
least values. -/
theorem get_default_afterAll (history : List Assignment) :
    (∀ (options left : Options) (assignment : Assignment),
      (∃ cause, setInPlace assignment.knob assignment.value options = .error cause left) ↔
        taken? assignment.knob assignment.value = none ∧ left = options) ∧
      (∀ knob, knob ≠ .maxBatchSize → (default.afterAll history).get knob =
        ((history.filterMap fun assignment =>
          if assignment.knob = knob then taken? knob assignment.value
          else none).getLast?).getD (default.get knob)) ∧
      (default.afterAll history).get .maxBatchSize =
        ((history.filterMap fun assignment =>
          if assignment.knob = .maxBatchSize then taken? .maxBatchSize assignment.value
          else if assignment.liftsLimit then some (.int 2147483647)
          else none).getLast?).getD (.int 52000) ∧
      ((∀ assignment ∈ history, assignment.knob = .maxBatchSize ∨
          assignment.knob = .maxManifestSize → ∀ float, assignment.value ≠ .float float) →
        ∃ batch manifest : Int,
          integer? ((default.afterAll history).get .maxBatchSize) = some batch ∧ 0 ≤ batch ∧
            integer? ((default.afterAll history).get .maxManifestSize) = some manifest ∧
              -1 ≤ manifest) := by
  refine ⟨fun options left assignment => setInPlace_error_iff assignment, fun knob other => ?_, ?_,
    fun given => ?_⟩
  · rw [get_afterAll]
    congr 3
    funext assignment
    rw [Assignment.trace?, if_neg fun lifted : _ ∧ _ => other lifted.1]
  · rw [get_afterAll]
    congr 3
    funext assignment
    simp only [Assignment.trace?, true_and]
  · obtain ⟨⟨batch, isBatch, leastBatch⟩, ⟨manifest, isManifest, leastManifest⟩⟩ :=
      whole_default.afterAll history given
    exact ⟨batch, manifest, isBatch, leastBatch, isManifest, leastManifest⟩

/-- Calls, two of which fail; the batch size is set before the manifest size and not any more after
it. -/
def mixedHistory : List Assignment :=
  [⟨.maxBatchSize, .int 7⟩, ⟨.compression, .text "none"⟩, ⟨.maxManifestSize, .int (-3)⟩,
    ⟨.maxBatchSize, .text "8"⟩, ⟨.compression, .null⟩]

theorem get_default_afterAll_mixed :
    (default.afterAll mixedHistory).get .compression = .compression .none ∧
      (default.afterAll mixedHistory).get .maxBatchSize = .int 2147483647 ∧
      ∃ batch manifest : Int,
        integer? ((default.afterAll mixedHistory).get .maxBatchSize) = some batch ∧ 0 ≤ batch ∧
          integer? ((default.afterAll mixedHistory).get .maxManifestSize) = some manifest ∧
            -1 ≤ manifest := by
  obtain ⟨_, own, batch, whole⟩ := get_default_afterAll mixedHistory
  refine ⟨own .compression (by decide), batch, whole ?_⟩
  simp [mixedHistory]

end Options

end Septet
