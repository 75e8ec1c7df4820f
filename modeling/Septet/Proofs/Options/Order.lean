import Mathlib.Data.List.Perm.Basic
import Septet.Proofs.Options.History

/-!
# Options and the order of settings

The entries of the table of options that name a settable knob are calls on new options, made
in the order of the table (`assignmentsOf`).  If each of their knobs takes its value, the
options are what these calls come to, and else there are none (`setAll_eq`).

No name stands twice in a table of a document (`Settings.nodup_of_get?`).  So each knob but
the batch size has one entry that can leave a trace in it, and holds what the table has under
its name, which is the setting with its key (`free_of_ofSettings`).  Traces of one call are
the same in every order; only in the batch size two calls can leave one, and then the later
one counts (`ofSettings_of_perm`).
-/

set_option autoImplicit false

namespace Septet

/-! ## Names in tables -/

section Names

variable {α β : Type} {entries : List (String × α)} {f : String × α → Option β} {name : String}

/-- Where names stand once, what comes of the entry of one name comes of looking the name up. -/
theorem filterMap_of_once (once : (entries.map Prod.fst).Nodup)
    (only : ∀ entry ∈ entries, entry.1 ≠ name → f entry = none) :
    entries.filterMap f = ((entries.lookup name).bind fun value => f (name, value)).toList := by
  induction entries with
  | nil => rfl
  | cons entry entries ih =>
      obtain ⟨other, value⟩ := entry
      obtain ⟨fresh, onceLater⟩ := List.nodup_cons.mp once
      obtain ⟨here, later⟩ := List.forall_mem_cons.mp only
      by_cases same : other = name
      · subst same
        have none : entries.filterMap f = [] := by
          refine List.filterMap_eq_nil_iff.mpr fun another member => later another member ?_
          exact fun equal => fresh (List.mem_map.mpr ⟨another, member, equal⟩)
        rw [List.filterMap_cons, List.lookup_cons_self, Option.bind_some, none]
        cases f (other, value) <;> rfl
      · have different : (name == other) = false := beq_eq_false_iff_ne.mpr (Ne.symm same)
        rw [List.filterMap_cons, here same, List.lookup_cons, different]
        exact ih onceLater later

/-- At most one thing has only one order. -/
theorem eq_of_perm_toList {thing : Option β} {list : List β} (perm : thing.toList.Perm list) :
    list = thing.toList := by
  cases thing with
  | none => exact List.nil_perm.mp perm
  | some value => exact (List.singleton_perm.mp perm).symm

/-- Where only one name counts, and stands once, the same comes of the entries in every order. -/
theorem filterMap_eq_of_perm {reordered : List (String × α)} (once : (entries.map Prod.fst).Nodup)
    (only : ∀ entry ∈ entries, entry.1 ≠ name → f entry = none) (perm : entries.Perm reordered) :
    reordered.filterMap f = entries.filterMap f := by
  have same : (entries.filterMap f).Perm (reordered.filterMap f) := perm.filterMap f
  rw [filterMap_of_once once only] at same ⊢
  exact eq_of_perm_toList same

/-- What comes of entries last is what comes of the last one of which something comes. -/
theorem getLast?_filterMap {front behind : List (String × α)} {entry : String × α} {last : β}
    (comes : f entry = some last) (none : ∀ other ∈ behind, f other = none) :
    ((front ++ entry :: behind).filterMap f).getLast? = some last := by
  rw [List.filterMap_append, List.filterMap_cons, comes, List.filterMap_eq_nil_iff.mpr none]
  exact List.getLast?_concat

end Names

/-! ## Names of knobs -/

namespace Knob

/-- The names of the knobs that can be given in settings. -/
def settingNames : List String :=
  ["create_if_missing", "error_if_exists", "write_buffer_size", "max_open_files",
    "block_restart_interval", "block_size", "compression_type", "verify_checksums",
    "paranoid_checks", "cache_size", "bits_per_key", "max_batch_size", "max_manifest_size",
    "reuse_logs", "max_file_size"]

theorem ofSetting?_name (knob : Knob) (settable : knob.isSettable = true) :
    ofSetting? knob.name = some knob := by
  cases knob with
  | free free => cases free <;> first | rfl | cases settable
  | compression => rfl
  | maxBatchSize => rfl
  | maxManifestSize => rfl

theorem of_ofSetting? {name : String} {knob : Knob} (found : ofSetting? name = some knob) :
    knob.isSettable = true ∧ knob.name = name := by
  obtain ⟨named, settable⟩ := Option.filter_eq_some_iff.mp found
  have same : all.find? (fun other => other.name == name) = some knob := named
  have equal := List.find?_some same
  exact ⟨settable, eq_of_beq equal⟩

theorem ofSetting?_eq_none_iff {name : String} :
    ofSetting? name = none ↔ name ∉ settingNames := by
  constructor
  · intro none member
    have settable : ∀ other ∈ settingNames, (ofSetting? other).isSome = true := by decide +kernel
    have some := settable name member
    rw [none] at some
    cases some
  · intro outside
    cases found : ofSetting? name with
    | none => rfl
    | some knob =>
        obtain ⟨settable, rfl⟩ := of_ofSetting? found
        have inside : ∀ other ∈ all, other.isSettable = true → other.name ∈ settingNames := by
          decide +kernel
        have listed : knob ∈ all := List.mem_of_find?_eq_some (Option.filter_eq_some_iff.mp found).1
        exact absurd (inside knob listed settable) outside

end Knob

namespace Options

variable {options : Options} {entries : Table} {knob : Knob}

/-! ## Entries as calls -/

/-- The call that an entry of a table stands for, if it names a settable knob. -/
def assignmentOf? (entry : String × Value) : Option Assignment :=
  (Knob.ofSetting? entry.1).map fun knob => { knob, value := entry.2 }

/-- The calls that a table stands for, in its order. -/
def assignmentsOf (entries : Table) : List Assignment :=
  entries.filterMap assignmentOf?

/-- An entry with the name of a settable knob is a call on it. -/
theorem mem_assignmentsOf (knob : Knob) (settable : knob.isSettable = true) {value : Value}
    (member : (knob.name, value) ∈ entries) : ⟨knob, value⟩ ∈ assignmentsOf entries :=
  List.mem_filterMap.mpr
    ⟨_, member, congrArg (Option.map _) (Knob.ofSetting?_name knob settable)⟩

/-- A knob takes the value of a call. -/
def Takes (assignment : Assignment) : Prop :=
  (taken? assignment.knob assignment.value).isSome = true

/-- **A table comes to what its calls come to, or to nothing if one of them fails.** -/
theorem setAll_eq (entries : Table) :
    ∀ options : Options,
      ((∀ assignment ∈ assignmentsOf entries, Takes assignment) ∧
          options.setAll entries = .ok (options.afterAll (assignmentsOf entries))) ∨
        ((∃ assignment ∈ assignmentsOf entries, ¬Takes assignment) ∧
          ∃ cause, options.setAll entries = .error cause) := by
  induction entries with
  | nil => exact fun options => .inl ⟨List.forall_mem_nil _, rfl⟩
  | cons entry entries ih =>
      intro options
      obtain ⟨name, value⟩ := entry
      cases found : Knob.ofSetting? name with
      | none =>
          have calls : assignmentsOf ((name, value) :: entries) = assignmentsOf entries := by
            simp only [assignmentsOf, List.filterMap_cons, assignmentOf?, found, Option.map_none]
          rw [calls, setAll, found]
          exact ih options
      | some knob =>
          have calls : assignmentsOf ((name, value) :: entries) =
              ⟨knob, value⟩ :: assignmentsOf entries := by
            simp only [assignmentsOf, List.filterMap_cons, assignmentOf?, found, Option.map_some]
          rw [calls, setAll, found]
          rcases set_or_refused options ⟨knob, value⟩ with
            ⟨changed, set, taken, _⟩ | ⟨⟨cause, refused⟩, none, _⟩
          · have step : options.after ⟨knob, value⟩ = changed := by
              rw [after, setInPlace_eq]
              dsimp only at set ⊢
              rw [set]
            have all : options.afterAll (⟨knob, value⟩ :: assignmentsOf entries) =
                changed.afterAll (assignmentsOf entries) := by
              rw [afterAll, List.foldl_cons, step, afterAll]
            dsimp only at set ⊢
            rw [all, set]
            rcases ih changed with ⟨takes, ends⟩ | ⟨refuses, fails⟩
            · exact .inl ⟨List.forall_mem_cons.mpr ⟨taken, takes⟩, ends⟩
            · obtain ⟨call, member, fault⟩ := refuses
              exact .inr ⟨⟨call, List.mem_cons_of_mem _ member, fault⟩, fails⟩
          · have fault : ¬Takes ⟨knob, value⟩ := by
              rw [Takes, none]
              exact Bool.false_ne_true
            refine .inr ⟨⟨_, List.mem_cons_self, fault⟩, cause, ?_⟩
            dsimp only at refused ⊢
            rw [refused]
            rfl

theorem setAll_ok {after : Options} (ended : options.setAll entries = .ok after) :
    after = options.afterAll (assignmentsOf entries) := by
  rcases setAll_eq entries options with ⟨_, same⟩ | ⟨_, cause, failed⟩
  · exact Except.ok.inj (ended.symm.trans same)
  · cases ended.symm.trans failed

theorem takes_of_setAll_ok {after : Options} (ended : options.setAll entries = .ok after)
    {assignment : Assignment} (member : assignment ∈ assignmentsOf entries) : Takes assignment := by
  rcases setAll_eq entries options with ⟨takes, _⟩ | ⟨_, cause, failed⟩
  · exact takes assignment member
  · cases ended.symm.trans failed

theorem setAll_error_iff :
    (∃ cause, options.setAll entries = .error cause) ↔
      ∃ assignment ∈ assignmentsOf entries, ¬Takes assignment := by
  rcases setAll_eq entries options with ⟨takes, ended⟩ | ⟨refuses, failed⟩
  · rw [ended]
    refine iff_of_false (fun ⟨_, failed⟩ => by cases failed) ?_
    rintro ⟨assignment, member, refused⟩
    exact refused (takes assignment member)
  · exact iff_of_true failed refuses

/-! ## Traces of entries -/

/-- What an entry of a table leaves in a knob. -/
def traceOf? (knob : Knob) (entry : String × Value) : Option Value :=
  (assignmentOf? entry).bind (Assignment.trace? knob)

theorem get_afterAll_assignmentsOf (options : Options) (entries : Table) (knob : Knob) :
    (options.afterAll (assignmentsOf entries)).get knob =
      ((entries.filterMap (traceOf? knob)).getLast?).getD (options.get knob) := by
  rw [get_afterAll, assignmentsOf, List.filterMap_filterMap]
  rfl

/-- In a knob other than the batch size, only the entry of its own name leaves something. -/
theorem traceOf?_of_ne (other : knob ≠ .maxBatchSize) {entry : String × Value}
    (different : entry.1 ≠ knob.name) : traceOf? knob entry = none := by
  rw [traceOf?, assignmentOf?]
  cases found : Knob.ofSetting? entry.1 with
  | none => rfl
  | some named =>
      have apart : named ≠ knob := by
        rintro rfl
        exact different (Knob.of_ofSetting? found).2.symm
      rw [Option.map_some, Option.bind_some, Assignment.trace?, if_neg apart,
        if_neg fun lifted : _ ∧ _ => other lifted.1]

/-- The entry of its own name leaves in a knob what the knob takes. -/
theorem traceOf?_name (knob : Knob) (settable : knob.isSettable = true) (value : Value) :
    traceOf? knob (knob.name, value) = taken? knob value := by
  rw [traceOf?, assignmentOf?, Knob.ofSetting?_name knob settable]
  exact if_pos rfl

/-- A knob that cannot be given in settings is left as it is. -/
theorem traceOf?_of_not_settable (fixed : knob.isSettable = false) (entry : String × Value) :
    traceOf? knob entry = none := by
  rw [traceOf?, assignmentOf?]
  cases found : Knob.ofSetting? entry.1 with
  | none => rfl
  | some named =>
      have settable := (Knob.of_ofSetting? found).1
      have apart : named ≠ knob := by
        rintro rfl
        cases fixed.symm.trans settable
      have size : knob ≠ .maxBatchSize := by
        rintro rfl
        cases fixed
      rw [Option.map_some, Option.bind_some, Assignment.trace?, if_neg apart,
        if_neg fun lifted : _ ∧ _ => size lifted.1]

/-- Whether a value is a number below zero. -/
def isNegative (value : Value) : Bool :=
  value.number?.any fun size => size.lessThan 0

theorem traceOf?_maxManifestSize (manifest : Value) :
    traceOf? .maxBatchSize ("max_manifest_size", manifest) =
      if isNegative manifest then some (.int 2147483647) else none := by
  have call : assignmentOf? ("max_manifest_size", manifest) = some ⟨.maxManifestSize, manifest⟩ :=
    congrArg (Option.map _) (Knob.ofSetting?_name .maxManifestSize rfl)
  rw [traceOf?, call, Option.bind_some, Assignment.trace?, if_neg (by simp)]
  have lifts : Assignment.liftsLimit ⟨.maxManifestSize, manifest⟩ = isNegative manifest := rfl
  rw [lifts]
  cases isNegative manifest <;> simp

/-- In the batch size, the entries of two names can leave something. -/
theorem traceOf?_maxBatchSize_of_ne {entry : String × Value} (batch : entry.1 ≠ "max_batch_size")
    (manifest : entry.1 ≠ "max_manifest_size") : traceOf? .maxBatchSize entry = none := by
  rw [traceOf?, assignmentOf?]
  cases found : Knob.ofSetting? entry.1 with
  | none => rfl
  | some named =>
      have name := (Knob.of_ofSetting? found).2
      have apart : named ≠ .maxBatchSize := by
        rintro rfl
        exact batch name.symm
      have harmless : named ≠ .maxManifestSize := by
        rintro rfl
        exact manifest name.symm
      rw [Option.map_some, Option.bind_some, Assignment.trace?, if_neg apart, if_neg]
      simp [Assignment.liftsLimit, harmless]

/-! ## Tables in another order -/

/-- A table holds a batch size and a negative manifest size, which lifts the limit on batches. -/
def Contended (entries : Table) : Prop :=
  ∃ batch manifest, ("max_batch_size", batch) ∈ entries ∧
    ("max_manifest_size", manifest) ∈ entries ∧ isNegative manifest = true

/-- Where the batch size is not contended, one name counts for it. -/
theorem traceOf?_maxBatchSize_only (settled : ¬Contended entries) :
    ∃ name, ∀ entry ∈ entries, entry.1 ≠ name → traceOf? .maxBatchSize entry = none := by
  -- beside a batch size no manifest size is negative, and where there is none only one can count
  by_cases batch : ∃ value, ("max_batch_size", value) ∈ entries
  · obtain ⟨value, member⟩ := batch
    refine ⟨"max_batch_size", fun (name, other) found different => ?_⟩
    by_cases same : name = "max_manifest_size"
    · subst same
      have harmless : ¬isNegative other = true :=
        fun negative => settled ⟨value, other, member, found, negative⟩
      rw [traceOf?_maxManifestSize, if_neg harmless]
    · exact traceOf?_maxBatchSize_of_ne different same
  · refine ⟨"max_manifest_size", fun (name, other) found different => ?_⟩
    refine traceOf?_maxBatchSize_of_ne ?_ different
    rintro rfl
    exact batch ⟨other, found⟩

section Reordered

variable {reordered : Table} {first second : Options}

/-- Calls in another order leave the same in all knobs but the batch size. -/
theorem get_eq_of_perm (once : (entries.map Prod.fst).Nodup) (perm : entries.Perm reordered)
    (other : knob ≠ .maxBatchSize) :
    (options.afterAll (assignmentsOf reordered)).get knob =
      (options.afterAll (assignmentsOf entries)).get knob := by
  have traces := filterMap_eq_of_perm once
    (fun _ _ different => traceOf?_of_ne other different) perm
  rw [get_afterAll_assignmentsOf, get_afterAll_assignmentsOf, traces]

theorem get_maxBatchSize_eq_of_perm (once : (entries.map Prod.fst).Nodup)
    (settled : ¬Contended entries) (perm : entries.Perm reordered) :
    (options.afterAll (assignmentsOf reordered)).get .maxBatchSize =
      (options.afterAll (assignmentsOf entries)).get .maxBatchSize := by
  obtain ⟨name, only⟩ := traceOf?_maxBatchSize_only settled
  have traces := filterMap_eq_of_perm once only perm
  rw [get_afterAll_assignmentsOf, get_afterAll_assignmentsOf, traces]

theorem ofNumber_injective : Function.Injective Value.ofNumber := by
  intro left right equal
  cases left <;> cases right <;> cases equal <;> rfl

/-- Options in which every knob holds the same are the same. -/
theorem eq_of_get_eq (same : ∀ knob, first.get knob = second.get knob) : first = second := by
  obtain ⟨free, compression, batch, manifest⟩ := first
  obtain ⟨otherFree, otherCompression, otherBatch, otherManifest⟩ := second
  obtain rfl : free = otherFree := funext fun knob => same (.free knob)
  obtain rfl : compression = otherCompression := Value.compression.inj (same .compression)
  obtain rfl : batch = otherBatch := ofNumber_injective (same .maxBatchSize)
  obtain rfl : manifest = otherManifest := ofNumber_injective (same .maxManifestSize)
  rfl

/-- **Whether a table can be set does not depend on its order.** -/
theorem setAll_error_iff_of_perm (perm : entries.Perm reordered) :
    (∃ cause, options.setAll entries = .error cause) ↔
      ∃ cause, options.setAll reordered = .error cause := by
  rw [setAll_error_iff, setAll_error_iff]
  have calls : (assignmentsOf entries).Perm (assignmentsOf reordered) := perm.filterMap _
  exact exists_congr fun call => and_congr_left fun _ => calls.mem_iff

/-- Another order of a table that can be set can be set too, to the same in all knobs but a contended
batch size. -/
theorem exists_setAll_of_perm (once : (entries.map Prod.fst).Nodup) (perm : entries.Perm reordered)
    (given : options.setAll entries = .ok first) :
    ∃ second, options.setAll reordered = .ok second ∧
      (∀ knob, knob ≠ .maxBatchSize → second.get knob = first.get knob) ∧
      (¬Contended entries → second = first) := by
  cases reached : options.setAll reordered with
  | error cause =>
      obtain ⟨cause, failed⟩ := (setAll_error_iff_of_perm perm).mpr ⟨cause, reached⟩
      cases given.symm.trans failed
  | ok second =>
      obtain rfl := setAll_ok given
      obtain rfl := setAll_ok reached
      refine ⟨_, rfl, fun knob apart => get_eq_of_perm once perm apart, fun settled => ?_⟩
      refine eq_of_get_eq fun knob => ?_
      by_cases size : knob = .maxBatchSize
      · subst size
        exact get_maxBatchSize_eq_of_perm once settled perm
      · exact get_eq_of_perm once perm size

end Reordered

/-! ## The later of two entries -/

/-- What a call leaves in the batch size stays there if no entry behind it counts. -/
theorem get_maxBatchSize_of_last {front behind : Table} {name : String} {value last : Value}
    (trace : traceOf? .maxBatchSize (name, value) = some last)
    (batch : "max_batch_size" ∉ behind.map Prod.fst)
    (manifest : "max_manifest_size" ∉ behind.map Prod.fst) :
    (options.afterAll (assignmentsOf (front ++ (name, value) :: behind))).get .maxBatchSize =
      last := by
  have none : ∀ entry ∈ behind, traceOf? .maxBatchSize entry = Option.none := by
    intro entry member
    refine traceOf?_maxBatchSize_of_ne ?_ ?_
    · exact fun same => batch (List.mem_map.mpr ⟨entry, member, same⟩)
    · exact fun same => manifest (List.mem_map.mpr ⟨entry, member, same⟩)
  rw [get_afterAll_assignmentsOf, getLast?_filterMap trace none, Option.getD_some]

/-- Of two names that stand once, neither stands behind the later one. -/
theorem names_of_later {front middle behind : Table} {first second : String} {left right : Value}
    (once : ((front ++ (first, left) :: middle ++ (second, right) :: behind).map Prod.fst).Nodup) :
    first ∉ behind.map Prod.fst ∧ second ∉ behind.map Prod.fst := by
  rw [List.map_append, List.map_cons] at once
  -- the table is cut in front of the later name, so the earlier one is in the first part
  obtain ⟨_, later, apart⟩ := List.nodup_append.mp once
  refine ⟨fun again => ?_, (List.nodup_cons.mp later).1⟩
  have earlier : first ∈ (front ++ (first, left) :: middle).map Prod.fst :=
    List.mem_map.mpr ⟨_, List.mem_append_right _ List.mem_cons_self, rfl⟩
  exact apart _ earlier _ (List.mem_cons_of_mem _ again) rfl

/-- A later negative manifest size lifts the limit on batches. -/
theorem get_maxBatchSize_of_manifest_later {front middle behind : Table} {batch manifest : Value}
    (once : ((front ++ ("max_batch_size", batch) :: middle ++
      ("max_manifest_size", manifest) :: behind).map Prod.fst).Nodup)
    (negative : isNegative manifest = true) :
    (options.afterAll (assignmentsOf (front ++ ("max_batch_size", batch) :: middle ++
      ("max_manifest_size", manifest) :: behind))).get .maxBatchSize = .int 2147483647 := by
  obtain ⟨noBatch, noManifest⟩ := names_of_later once
  refine get_maxBatchSize_of_last ?_ noBatch noManifest
  rw [traceOf?_maxManifestSize, if_pos negative]

/-- A later batch size counts, whatever the manifest size. -/
theorem get_maxBatchSize_of_batch_later {front middle behind : Table} {batch manifest : Value}
    (once : ((front ++ ("max_manifest_size", manifest) :: middle ++
      ("max_batch_size", batch) :: behind).map Prod.fst).Nodup)
    (takes : Takes ⟨.maxBatchSize, batch⟩) :
    (options.afterAll (assignmentsOf (front ++ ("max_manifest_size", manifest) :: middle ++
      ("max_batch_size", batch) :: behind))).get .maxBatchSize =
        if isNegative batch then .int 2147483647 else batch := by
  obtain ⟨noManifest, noBatch⟩ := names_of_later once
  refine get_maxBatchSize_of_last ?_ noBatch noManifest
  refine (traceOf?_name .maxBatchSize rfl batch).trans ?_
  cases number : batch.number? with
  | none =>
      rw [Takes, taken?, number] at takes
      cases takes
  | some size =>
      rw [taken?, isNegative, number]
      rfl

/-! ## Options from settings -/

section OfSettings

variable {settings : Settings}

theorem ofSettings_table (table : settings.get? "options" = some (.table entries)) :
    ofSettings settings = default.setAll entries := by
  rw [ofSettings, settingsKey, Settings.get, table, Option.getD_some]

/-- Settings without a table of options give every knob its default. -/
theorem ofSettings_no_table (none : ∀ entries, settings.get? "options" ≠ some (.table entries)) :
    ofSettings settings = .ok default := by
  rw [ofSettings, settingsKey, Settings.get]
  cases found : settings.get? "options" with
  | none => rfl
  | some value =>
      cases value with
      | table entries => exact absurd found (none entries)
      | _ => rfl

/-- Entries that name no settable knob do not count. -/
theorem setAll_filter (entries : Table) :
    ∀ options : Options,
      options.setAll (entries.filter fun entry => entry.1 ∈ Knob.settingNames) =
        options.setAll entries := by
  induction entries with
  | nil => exact fun options => rfl
  | cons entry entries ih =>
      intro options
      obtain ⟨name, value⟩ := entry
      rw [List.filter_cons, setAll]
      by_cases listed : name ∈ Knob.settingNames
      · rw [if_pos (decide_eq_true listed), setAll]
        cases Knob.ofSetting? name with
        | none => exact ih options
        | some knob => exact congrArg _ (funext ih)
      · have unlisted : ¬decide (name ∈ Knob.settingNames) = true := by simpa using listed
        rw [if_neg unlisted, Knob.ofSetting?_eq_none_iff.mpr listed]
        exact ih options

/-! ### Knobs that keep what they are given -/

theorem pathOf_options_name (knob : FreeKnob) :
    Settings.pathOf ("options." ++ knob.name) = ["options", knob.name] := by
  cases knob <;> rfl

/-- A setting below the options is what the table of options has under its name. -/
theorem get?_options_name (knob : FreeKnob) :
    settings.get? ("options." ++ knob.name) =
      (settings.get? "options").bind (Settings.follow [knob.name]) := by
  have path : Settings.pathOf "options" = ["options"] := rfl
  rw [Settings.get?, Settings.get?, pathOf_options_name, path, Settings.follow, Settings.follow,
    Option.bind_assoc]
  rfl

/-- A knob that keeps what it is given holds what the table has under its name. -/
theorem free_afterAll (once : (entries.map Prod.fst).Nodup) {knob : FreeKnob}
    (settable : (Knob.free knob).isSettable = true) :
    (options.afterAll (assignmentsOf entries)).free knob =
      (entries.lookup knob.name).getD (options.free knob) := by
  have kept : Knob.free knob ≠ .maxBatchSize := by simp
  have traces := filterMap_of_once once fun _ _ different => traceOf?_of_ne kept different
  have held := get_afterAll_assignmentsOf options entries (.free knob)
  rw [traces] at held
  refine held.trans ?_
  show _ = (entries.lookup (Knob.free knob).name).getD _
  cases entries.lookup (Knob.free knob).name with
  | none => rfl
  | some value =>
      rw [Option.bind_some, traceOf?_name _ settable]
      rfl

/-- A knob that cannot be given in settings keeps what it holds. -/
theorem free_afterAll_of_not_settable {knob : FreeKnob}
    (fixed : (Knob.free knob).isSettable = false) :
    (options.afterAll (assignmentsOf entries)).free knob = options.free knob := by
  have traceless : entries.filterMap (traceOf? (.free knob)) = [] :=
    List.filterMap_eq_nil_iff.mpr fun entry _ => traceOf?_of_not_settable fixed entry
  have held := get_afterAll_assignmentsOf options entries (.free knob)
  rw [traceless] at held
  exact held

/-- **A knob that keeps what it is given holds the setting with its key.** -/
theorem free_of_ofSettings
    (once : ∀ entries, settings.get? "options" = some (.table entries) →
      (entries.map Prod.fst).Nodup)
    (given : ofSettings settings = .ok options) {knob : FreeKnob}
    (settable : (Knob.free knob).isSettable = true) :
    options.free knob = settings.get ("options." ++ knob.name) knob.default := by
  rw [Settings.get, get?_options_name]
  by_cases table : ∃ entries, settings.get? "options" = some (.table entries)
  · obtain ⟨entries, table⟩ := table
    rw [ofSettings_table table] at given
    rw [setAll_ok given, free_afterAll (once entries table) settable, table, Option.bind_some,
      Settings.follow]
    cases entries.lookup knob.name <;> rfl
  · have none : ∀ entries, settings.get? "options" ≠ some (.table entries) :=
      not_exists.mp table
    rw [ofSettings_no_table none] at given
    cases given
    cases found : settings.get? "options" with
    | none => rfl
    | some value =>
        cases value with
        | table entries => exact absurd found (none entries)
        | _ => rfl

theorem free_of_ofSettings_of_not_settable (given : ofSettings settings = .ok options)
    {knob : FreeKnob} (fixed : (Knob.free knob).isSettable = false) :
    options.free knob = knob.default := by
  by_cases table : ∃ entries, settings.get? "options" = some (.table entries)
  · obtain ⟨entries, table⟩ := table
    rw [ofSettings_table table] at given
    rw [setAll_ok given, free_afterAll_of_not_settable fixed]
    rfl
  · rw [ofSettings_no_table (not_exists.mp table)] at given
    cases given
    rfl

/-- **Options from settings, whatever the order of their table.**  Without a table of options every
knob has its default.  With one, whether there are options does not depend on its order.  If there
are, every knob that keeps what it is given holds the setting with its key, entries that name no
settable knob have no effect, and another order gives the same options, except for the batch size
where the table holds both that and a negative manifest size: there the later of the two decides. -/
theorem ofSettings_of_perm (settings : Settings)
    (once : ∀ entries, settings.get? "options" = some (.table entries) →
      (entries.map Prod.fst).Nodup) :
    ((∀ entries, settings.get? "options" ≠ some (.table entries)) →
        ofSettings settings = .ok default) ∧
      (∀ options, ofSettings settings = .ok options →
        (∀ knob : FreeKnob, knob ≠ .comparator → knob ≠ .logger →
          options.free knob = settings.get ("options." ++ knob.name) knob.default) ∧
        options.free .comparator = .null ∧ options.free .logger = .null) ∧
      ∀ entries, settings.get? "options" = some (.table entries) →
        (∀ known, known.get? "options" =
            some (.table (entries.filter fun entry => entry.1 ∈ Knob.settingNames)) →
          ofSettings known = ofSettings settings) ∧
        (∀ other reordered, other.get? "options" = some (.table reordered) →
          entries.Perm reordered →
          ((∃ cause, ofSettings settings = .error cause) ↔
            ∃ cause, ofSettings other = .error cause) ∧
          ∀ options, ofSettings settings = .ok options →
            ∃ others, ofSettings other = .ok others ∧
              (∀ knob, knob ≠ .maxBatchSize → others.get knob = options.get knob) ∧
              (¬Contended entries → others = options)) ∧
        ∀ options, ofSettings settings = .ok options →
          ∀ front middle behind batch manifest, isNegative manifest = true →
            (entries = front ++ ("max_batch_size", batch) :: middle ++
                ("max_manifest_size", manifest) :: behind →
              options.get .maxBatchSize = .int 2147483647) ∧
            (entries = front ++ ("max_manifest_size", manifest) :: middle ++
                ("max_batch_size", batch) :: behind →
              options.get .maxBatchSize =
                if isNegative batch then .int 2147483647 else batch) := by
  refine ⟨ofSettings_no_table, fun options given => ⟨fun knob comparator logger => ?_, ?_, ?_⟩,
    fun entries table => ⟨fun known filtered => ?_, fun other reordered otherTable perm => ?_,
      fun options given front middle behind batch manifest negative => ?_⟩⟩
  · refine free_of_ofSettings once given ?_
    cases knob <;> first | rfl | exact absurd rfl comparator | exact absurd rfl logger
  · exact free_of_ofSettings_of_not_settable given rfl
  · exact free_of_ofSettings_of_not_settable given rfl
  · rw [ofSettings_table filtered, setAll_filter, ofSettings_table table]
  · rw [ofSettings_table table, ofSettings_table otherTable]
    exact ⟨setAll_error_iff_of_perm perm, fun options given =>
      exists_setAll_of_perm (once entries table) perm given⟩
  · rw [ofSettings_table table] at given
    have nodup := once entries table
    constructor
    · rintro rfl
      rw [setAll_ok given, get_maxBatchSize_of_manifest_later nodup negative]
    · rintro rfl
      have takes := takes_of_setAll_ok given (mem_assignmentsOf .maxBatchSize rfl
        (List.mem_append_right _ List.mem_cons_self))
      rw [setAll_ok given, get_maxBatchSize_of_batch_later nodup takes]

/-- Settings with nothing but a batch size, a negative manifest size and a comparator. -/
def contended : Settings where
  table := [("options", .table [("max_batch_size", .int 5), ("max_manifest_size", .int (-2)),
    ("comparator", .text "bytes")])]

/-- The same settings with the manifest size first. -/
def contendedFirst : Settings where
  table := [("options", .table [("max_manifest_size", .int (-2)), ("max_batch_size", .int 5),
    ("comparator", .text "bytes")])]

theorem ofSettings_of_perm_contended :
    ∃ options others, ofSettings contended = .ok options ∧ ofSettings contendedFirst = .ok others ∧
      options.get .maxBatchSize = .int 2147483647 ∧ others.get .maxBatchSize = .int 5 ∧
        others.get .maxManifestSize = options.get .maxManifestSize ∧
          options.free .comparator = .null ∧ options.free .blockSize = .int 4096 := by
  obtain ⟨_, kept, ordered⟩ := ofSettings_of_perm contended (by rintro _ ⟨⟩; decide +kernel)
  obtain ⟨_, _, orderedFirst⟩ := ofSettings_of_perm contendedFirst (by rintro _ ⟨⟩; decide +kernel)
  obtain ⟨_, reordered, later⟩ := ordered _ rfl
  obtain ⟨_, _, laterFirst⟩ := orderedFirst _ rfl
  obtain ⟨_, agree⟩ := reordered contendedFirst _ rfl (List.Perm.swap _ _ _)
  obtain ⟨others, set, same, _⟩ := agree _ rfl
  obtain ⟨free, comparator, _⟩ := kept _ rfl
  refine ⟨_, others, rfl, set, ?_, ?_, same _ (by decide), comparator, ?_⟩
  · exact (later _ rfl [] [] _ (.int 5) (.int (-2)) rfl).1 rfl
  · exact (laterFirst others set [] [] _ (.int 5) (.int (-2)) rfl).2 rfl
  · exact free .blockSize (by decide) (by decide)

end OfSettings

end Options

end Septet
