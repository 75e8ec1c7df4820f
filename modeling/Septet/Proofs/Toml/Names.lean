import Septet.Proofs.Running
import Septet.Settings.Document

/-!
# Names in settings documents

No name stands twice in a table of a document, nor in one within it (`Value.Distinct`): what
adds to a table adds under a name that is missing, or changes what stands at a name.  Every
change that headers and assignments make keeps this so of all the tables that grow
(`Keeps`), and it passes to the tables that have grown (`Node.Distinct.grown`).

So it holds of all that a document can say (`distinct_of_ofBytes`), and a setting that is a
table has each of its names once (`nodup_of_get?`).
-/

set_option autoImplicit false

namespace Septet

theorem mem_of_lookup {α : Type} {entries : List (String × α)} {name : String} {held : α}
    (found : entries.lookup name = some held) : (name, held) ∈ entries := by
  obtain ⟨front, behind, rfl, _⟩ := List.lookup_eq_some_iff.mp found
  exact List.mem_append_right _ List.mem_cons_self

/-- A value in which, and in all that it holds, no name stands twice in a table. -/
inductive Value.Distinct : Value → Prop where
  | plain {value : Value} : Toml.isCompound value = false → Distinct value
  | list {items : List Value} : (∀ item ∈ items, Distinct item) → Distinct (.list items)
  | table {entries : Table} : (entries.map Prod.fst).Nodup →
      (∀ entry ∈ entries, Distinct entry.2) → Distinct (.table entries)

namespace Toml

variable {entries after : Entries} {name : String} {node : Node}

/-! ## Tables that grow -/

/-- What stands at a name holds no table in which a name stands twice. -/
inductive Node.Distinct : Node → Prop where
  | value {content : Value} : content.Distinct → Distinct (.value content)
  | table {since : Option Nat} {entries : Entries} : (entries.map Prod.fst).Nodup →
      (∀ entry ∈ entries, Distinct entry.2) → Distinct (.table since entries)
  | tables {last : Entries} {earlier : List Entries} :
      (∀ entries ∈ last :: earlier, (entries.map Prod.fst).Nodup) →
      (∀ entries ∈ last :: earlier, ∀ entry ∈ entries, Distinct entry.2) →
      Distinct (.tables last earlier)

/-- A table that grows has every name once, and so have the tables within it. -/
structure Entries.Distinct (entries : Entries) : Prop where
  names : (entries.map Prod.fst).Nodup
  nodes : ∀ entry ∈ entries, entry.2.Distinct

theorem Entries.Distinct.nil : Entries.Distinct [] where
  names := List.nodup_nil
  nodes := List.forall_mem_nil _

theorem Node.distinct_table_iff {since : Option Nat} :
    Node.Distinct (.table since entries) ↔ entries.Distinct := by
  constructor
  · rintro (_ | ⟨names, nodes⟩)
    exact ⟨names, nodes⟩
  · exact fun distinct => .table distinct.names distinct.nodes

theorem Node.distinct_tables_iff {last : Entries} {earlier : List Entries} :
    Node.Distinct (.tables last earlier) ↔
      last.Distinct ∧ ∀ entries ∈ earlier, Entries.Distinct entries := by
  constructor
  · rintro (_ | _ | ⟨names, nodes⟩)
    have all : ∀ entries ∈ last :: earlier, Entries.Distinct entries :=
      fun entries member => ⟨names entries member, nodes entries member⟩
    exact List.forall_mem_cons.mp all
  · intro both
    have all := List.forall_mem_cons.mpr both
    exact .tables (fun entries member => (all entries member).names)
      fun entries member => (all entries member).nodes

/-! ## What has grown -/

theorem grownEntries_eq (entries : Entries) :
    ∀ later : Table, grownEntries entries later =
      (entries.map fun entry => (entry.1, entry.2.grown)).reverse ++ later := by
  induction entries with
  | nil => exact fun later => rfl
  | cons entry entries ih =>
      intro later
      obtain ⟨name, node⟩ := entry
      rw [grownEntries, ih, List.map_cons, List.reverse_cons, List.append_assoc]
      rfl

theorem grownTables_eq (earlier : List Entries) :
    ∀ later : List Value, grownTables earlier later =
      (earlier.map fun entries => .table entries.grown).reverse ++ later := by
  induction earlier with
  | nil => exact fun later => rfl
  | cons entries earlier ih =>
      intro later
      rw [grownTables, ih, List.map_cons, List.reverse_cons, List.append_assoc]
      rfl

/-- A table has grown with distinct names, if what stands in it has. -/
theorem distinct_grown (names : (entries.map Prod.fst).Nodup)
    (nodes : ∀ entry ∈ entries, entry.2.grown.Distinct) :
    Value.Distinct (.table entries.grown) := by
  have order : (entries.grown.map Prod.fst) = (entries.map Prod.fst).reverse := by
    rw [Entries.grown, grownEntries_eq, List.append_nil, List.map_reverse, List.map_map]
    rfl
  have once : (entries.grown.map Prod.fst).Nodup := by
    rw [order]
    exact List.pairwise_reverse.mpr (names.imp Ne.symm)
  refine .table once fun entry member => ?_
  rw [Entries.grown, grownEntries_eq, List.append_nil, List.mem_reverse, List.mem_map] at member
  obtain ⟨node, member, rfl⟩ := member
  exact nodes node member

theorem Node.Distinct.grown (distinct : node.Distinct) : node.grown.Distinct := by
  induction distinct with
  | value distinct => rwa [Node.grown]
  | table names _ ih =>
      rw [Node.grown]
      exact distinct_grown names ih
  | @tables last earlier names _ ih =>
      have all : ∀ entries ∈ last :: earlier, Value.Distinct (.table (Entries.grown entries)) :=
        fun entries member => distinct_grown (names entries member) (ih entries member)
      obtain ⟨atLast, before⟩ := List.forall_mem_cons.mp all
      rw [Node.grown, grownTables_eq]
      refine .list fun item member => ?_
      rcases List.mem_append.mp member with member | member
      · obtain ⟨entries, among, rfl⟩ := List.mem_map.mp (List.mem_reverse.mp member)
        exact before entries among
      · obtain rfl := List.mem_singleton.mp member
        exact atLast

theorem Entries.Distinct.grown (distinct : entries.Distinct) :
    Value.Distinct (.table entries.grown) :=
  distinct_grown distinct.names fun entry member => (distinct.nodes entry member).grown

/-! ## Changes -/

/-- A change of a table that leaves its names distinct. -/
def Keeps (change : Entries → Except Cause Entries) : Prop :=
  ∀ {entries after : Entries}, entries.Distinct → change entries = .ok after → after.Distinct

/-- A change of what stands at a name, if something does, that leaves names distinct. -/
structure KeepsNode (change : Option Node → Except Cause Node) : Prop where
  fresh : ∀ {node : Node}, change none = .ok node → node.Distinct
  held : ∀ {old node : Node}, old.Distinct → change (some old) = .ok node → node.Distinct

theorem map_fst_replaceEntry (name : String) (node : Node) (entries : Entries) :
    (replaceEntry name node entries).map Prod.fst = entries.map Prod.fst := by
  induction entries with
  | nil => rfl
  | cons entry entries ih =>
      obtain ⟨other, held⟩ := entry
      rw [replaceEntry]
      split
      · next same =>
          subst same
          rfl
      · rw [List.map_cons, List.map_cons, ih]

theorem Entries.Distinct.replaceEntry (distinct : entries.Distinct) (fine : node.Distinct) :
    Entries.Distinct (replaceEntry name node entries) := by
  obtain ⟨names, nodes⟩ := distinct
  constructor
  · rwa [map_fst_replaceEntry]
  · clear names
    induction entries with
    | nil => exact List.forall_mem_nil _
    | cons entry entries ih =>
        obtain ⟨other, held⟩ := entry
        obtain ⟨here, there⟩ := List.forall_mem_cons.mp nodes
        rw [Toml.replaceEntry]
        split
        · exact List.forall_mem_cons.mpr ⟨fine, there⟩
        · exact List.forall_mem_cons.mpr ⟨here, ih there⟩

/-- **Changing what stands at a name leaves names distinct**: a name is added where it is missing. -/
theorem keeps_changeEntry {change : Option Node → Except Cause Node} (keeps : KeepsNode change) :
    Keeps (changeEntry name change) := by
  intro entries after distinct changed
  rw [changeEntry] at changed
  -- only a name that is not found is added, so the names of the others stay distinct from it
  cases held : entries.lookup name with
  | none =>
      rw [held] at changed
      obtain ⟨node, made, rfl⟩ := Except.map_eq_ok changed
      have missing : name ∉ entries.map Prod.fst := by
        rintro member
        obtain ⟨entry, among, rfl⟩ := List.mem_map.mp member
        exact absurd rfl (bne_iff_ne.mp (List.lookup_eq_none_iff.mp held entry among))
      exact ⟨List.nodup_cons.mpr ⟨missing, distinct.names⟩,
        List.forall_mem_cons.mpr ⟨keeps.fresh made, distinct.nodes⟩⟩
  | some old =>
      rw [held] at changed
      obtain ⟨node, made, rfl⟩ := Except.map_eq_ok changed
      have fine := distinct.nodes _ (mem_of_lookup held)
      exact distinct.replaceEntry (keeps.held fine made)

theorem keeps_changeAt {closed : Cause} {change : Entries → Except Cause Entries}
    (keeps : Keeps change) (path : Path) : Keeps (changeAt closed change path) := by
  induction path with
  | nil => exact keeps
  | cons name path ih =>
      refine keeps_changeEntry ⟨fun made => ?_, @fun old node fine made => ?_⟩
      · obtain ⟨inner, below, rfl⟩ := Except.map_eq_ok made
        exact Node.distinct_table_iff.mpr (ih .nil below)
      · cases old with
        | value content => cases made
        | table since entries =>
            obtain ⟨inner, below, rfl⟩ := Except.map_eq_ok made
            exact Node.distinct_table_iff.mpr (ih (Node.distinct_table_iff.mp fine) below)
        | tables last earlier =>
            obtain ⟨inner, below, rfl⟩ := Except.map_eq_ok made
            obtain ⟨atLast, before⟩ := Node.distinct_tables_iff.mp fine
            exact Node.distinct_tables_iff.mpr ⟨ih atLast below, before⟩

theorem keeps_changeEnd {closed : Cause} {change : Option Node → Except Cause Node}
    (keeps : KeepsNode change) (path : Path) : Keeps (changeEnd closed change path) := by
  intro entries after distinct changed
  rw [changeEnd] at changed
  cases last : path.getLast? with
  | none =>
      rw [last] at changed
      cases changed
      exact distinct
  | some name =>
      rw [last] at changed
      exact keeps_changeAt (keeps_changeEntry keeps) _ distinct changed

/-! ## Headers and assignments -/

theorem keeps_declareAt (current : Nat) (path : Path) : Keeps (declareAt current path) := by
  refine keeps_changeEnd ⟨fun made => ?_, @fun old node fine made => ?_⟩ path
  · cases made
    exact Node.distinct_table_iff.mpr .nil
  · cases old with
    | value content => cases made
    | tables last earlier => cases made
    | table since entries =>
        dsimp only at made
        split at made
        · cases made
        · cases made
          exact Node.distinct_table_iff.mpr (Node.distinct_table_iff.mp fine)

theorem keeps_extendAt (path : Path) : Keeps (extendAt path) := by
  refine keeps_changeEnd ⟨fun made => ?_, @fun old node fine made => ?_⟩ path
  · cases made
    exact Node.distinct_tables_iff.mpr ⟨.nil, List.forall_mem_nil _⟩
  · cases old with
    | value content => cases made
    | table since entries => cases made
    | tables last earlier =>
        cases made
        have before := List.forall_mem_cons.mpr (Node.distinct_tables_iff.mp fine)
        exact Node.distinct_tables_iff.mpr ⟨.nil, before⟩

variable {value : Value}

theorem keeps_assignBelow (current : Nat) (distinct : value.Distinct) (closed : Cause)
    (path : Path) : ∀ before : Path, Keeps (assignBelow current value closed before path) := by
  induction path with
  | nil =>
      intro before entries after fine same
      cases same
      exact fine
  | cons name path ih =>
      intro before
      cases path with
      | nil =>
          refine keeps_changeEntry ⟨fun made => ?_, @fun old node fine made => ?_⟩
          · cases made
            exact .value distinct
          · cases made
      | cons next path =>
          intro entries after wasDistinct changed
          simp only [assignBelow] at changed
          refine keeps_changeEntry ⟨fun made => ?_, @fun old node fine made => ?_⟩ wasDistinct changed
          · obtain ⟨inner, below, rfl⟩ := Except.map_eq_ok made
            exact Node.distinct_table_iff.mpr (ih _ .nil below)
          · cases old with
            | value content => cases made
            | tables last earlier => cases made
            | table since entries =>
                dsimp only at made
                split at made
                · cases made
                · obtain ⟨inner, below, rfl⟩ := Except.map_eq_ok made
                  exact Node.distinct_table_iff.mpr (ih _ (Node.distinct_table_iff.mp fine) below)

theorem keeps_assignAt (current : Nat) (header path : Path) (distinct : value.Distinct) :
    Keeps (assignAt current header path value) :=
  keeps_changeAt (keeps_assignBelow current distinct _ path _) header

theorem keeps_insertAt (path : Path) (distinct : value.Distinct) : Keeps (insertAt path value) := by
  refine keeps_changeEnd ⟨fun made => ?_, @fun old node fine made => ?_⟩ path
  · cases made
    exact .value distinct
  · cases old <;> cases made

theorem keeps_faultAt {change : Entries → Except Cause Entries} (keeps : Keeps change)
    {unread : List Char} (distinct : entries.Distinct)
    (changed : Toml.faultAt unread (change entries) = .ok after) : after.Distinct := by
  rw [Toml.faultAt] at changed
  cases outcome : change entries with
  | error cause =>
      rw [outcome] at changed
      cases changed
  | ok reached =>
      rw [outcome] at changed
      cases changed
      exact keeps distinct outcome

/-! ## Reading values -/

variable {unread rest : List Char}

theorem isCompound_readCalendar (read : readCalendar? unread = some (.ok (value, rest))) :
    isCompound value = false := by
  rw [readCalendar?] at read
  cases date : takeDate? unread with
  | none =>
      rw [date] at read
      obtain ⟨_, _, same⟩ := Option.map_eq_some_iff.mp read
      cases same
      rfl
  | some taken =>
      obtain ⟨day, behind⟩ := taken
      rw [date] at read
      dsimp only at read
      split at read
      · rw [dated] at read
        split at read <;> cases read <;> rfl
      · cases read

theorem isCompound_takeBased (taken : takeBased? unread = some (value, rest)) :
    isCompound value = false := by
  rw [takeBased?.eq_def] at taken
  split at taken
  · obtain ⟨base, _, taken⟩ := Option.bind_eq_some_iff.mp taken
    obtain ⟨_, _, taken⟩ := Option.bind_eq_some_iff.mp taken
    cases taken
    rfl
  · cases taken

theorem isCompound_takeWord (taken : takeWord? unread = some (value, rest)) :
    isCompound value = false := by
  rw [takeWord?] at taken
  split at taken <;> cases taken <;> rfl

theorem isCompound_readDecimal (read : readDecimal? unread = some (.ok (value, rest))) :
    isCompound value = false := by
  simp only [readDecimal?] at read
  split at read
  · cases read
  · split at read
    · rw [integerOf] at read
      split at read <;> cases read
      rfl
    · cases read
      rfl

theorem isCompound_readNumber (read : readNumber? unread = some (.ok (value, rest))) :
    isCompound value = false := by
  rw [readNumber?] at read
  cases based : takeBased? unread with
  | some taken =>
      rw [based] at read
      cases read
      exact isCompound_takeBased based
  | none =>
      rw [based] at read
      cases decimal : readDecimal? unread with
      | some result =>
          rw [decimal] at read
          cases read
          exact isCompound_readDecimal decimal
      | none =>
          rw [decimal] at read
          obtain ⟨_, taken, same⟩ := Option.map_eq_some_iff.mp read
          cases same
          exact isCompound_takeWord taken

theorem isCompound_readWord (read : readWord unread = .ok (value, rest)) :
    isCompound value = false := by
  rw [readWord.eq_def] at read
  split at read
  · cases read
    rfl
  · cases read
    rfl
  · split at read
    · next result begins =>
        subst read
        cases calendar : readCalendar? unread with
        | some result =>
            rw [calendar] at begins
            cases begins
            exact isCompound_readCalendar calendar
        | none =>
            rw [calendar] at begins
            exact isCompound_readNumber begins
    · cases read

/-- What is read with a fuel holds no table in which a name stands twice. -/
structure ReadsDistinct (fuel : Nat) : Prop where
  value : ∀ {unread value rest}, readValue fuel unread = .ok (value, rest) → value.Distinct
  items : ∀ {unread items rest}, readItems fuel unread = .ok (items, rest) →
    ∀ item ∈ items, item.Distinct
  entries : ∀ {unread entries after rest}, Entries.Distinct entries →
    readEntries fuel entries unread = .ok (after, rest) → Entries.Distinct after

namespace ReadsDistinct

variable {fuel : Nat} (reads : ReadsDistinct fuel)
include reads

theorem distinct_of_readValue (read : readValue (fuel + 1) unread = .ok (value, rest)) :
    value.Distinct := by
  rw [readValue.eq_def] at read
  dsimp only at read
  split at read
  · obtain ⟨_, _, same⟩ := Except.bind_eq_ok read
    cases same
    exact .plain rfl
  · obtain ⟨_, _, same⟩ := Except.bind_eq_ok read
    cases same
    exact .plain rfl
  · obtain ⟨start, _, read⟩ := Except.bind_eq_ok read
    split at read
    · cases read
      exact .list (List.forall_mem_nil _)
    · obtain ⟨_, items, same⟩ := Except.bind_eq_ok read
      cases same
      exact .list (reads.items items)
  · split at read
    · cases read
      exact .table List.nodup_nil (List.forall_mem_nil _)
    · obtain ⟨_, entries, same⟩ := Except.bind_eq_ok read
      cases same
      exact (reads.entries .nil entries).grown
  · exact .plain (isCompound_readWord read)

theorem distinct_of_readItems {items : List Value}
    (read : readItems (fuel + 1) unread = .ok (items, rest)) : ∀ item ∈ items, item.Distinct := by
  rw [readItems] at read
  obtain ⟨⟨item, behind⟩, first, read⟩ := Except.bind_eq_ok read
  have here := reads.value first
  obtain ⟨start, _, read⟩ := Except.bind_eq_ok read
  split at read
  · cases read
    exact List.forall_mem_singleton.mpr here
  · obtain ⟨start, _, read⟩ := Except.bind_eq_ok read
    split at read
    · cases read
      exact List.forall_mem_singleton.mpr here
    · obtain ⟨_, items, same⟩ := Except.bind_eq_ok read
      cases same
      exact List.forall_mem_cons.mpr ⟨here, reads.items items⟩
  · cases read

theorem distinct_of_readEntries (distinct : entries.Distinct)
    (read : readEntries (fuel + 1) entries unread = .ok (after, rest)) : after.Distinct := by
  rw [readEntries] at read
  obtain ⟨⟨path, start⟩, _, read⟩ := Except.bind_eq_ok read
  obtain ⟨⟨value, behind⟩, assigned, read⟩ := Except.bind_eq_ok read
  obtain ⟨grown, inserted, read⟩ := Except.bind_eq_ok read
  have further := keeps_faultAt (keeps_insertAt path (reads.value assigned)) distinct inserted
  split at read
  · cases read
    exact further
  · exact reads.entries further read
  · cases read

end ReadsDistinct

/-- **What is read as a value holds no table in which a name stands twice.** -/
theorem readsDistinct (fuel : Nat) : ReadsDistinct fuel := by
  induction fuel with
  | zero =>
      refine ⟨fun read => ?_, fun read => ?_, fun _ read => ?_⟩
      · cases read
      · cases read
      · cases read
  | succ fuel reads =>
      exact ⟨reads.distinct_of_readValue, reads.distinct_of_readItems,
        reads.distinct_of_readEntries⟩

/-! ## Reading documents -/

theorem distinct_of_readStatement {fuel : Nat} {draft read : Draft}
    (distinct : draft.entries.Distinct)
    (statement : readStatement fuel draft unread = .ok (read, rest)) :
    read.entries.Distinct := by
  rw [readStatement.eq_def] at statement
  split at statement
  · cases statement
    exact distinct
  · cases statement
    exact distinct
  · obtain ⟨⟨path, _⟩, _, statement⟩ := Except.bind_eq_ok statement
    obtain ⟨entries, extended, statement⟩ := Except.bind_eq_ok statement
    have further := keeps_faultAt (keeps_extendAt path) distinct extended
    split at statement
    · cases statement
      exact further
    · cases statement
  · obtain ⟨⟨path, _⟩, _, statement⟩ := Except.bind_eq_ok statement
    obtain ⟨entries, declared, statement⟩ := Except.bind_eq_ok statement
    have further := keeps_faultAt (keeps_declareAt _ path) distinct declared
    split at statement
    · cases statement
      exact further
    · cases statement
  · split at statement
    · obtain ⟨⟨path, _⟩, _, statement⟩ := Except.bind_eq_ok statement
      obtain ⟨⟨value, _⟩, assigned, statement⟩ := Except.bind_eq_ok statement
      obtain ⟨entries, added, statement⟩ := Except.bind_eq_ok statement
      cases statement
      have value := (readsDistinct _).value assigned
      exact keeps_faultAt (keeps_assignAt _ _ path value) distinct added
    · cases statement

theorem distinct_of_readLinesOf (fuel : Nat) :
    ∀ {draft : Draft} {unread : List Char} {table : Table}, draft.entries.Distinct →
      readLinesOf fuel draft unread = .ok table → Value.Distinct (.table table) := by
  induction fuel with
  | zero =>
      intro draft unread table distinct read
      cases read
      exact distinct.grown
  | succ fuel ih =>
      intro draft unread table distinct read
      rw [readLinesOf] at read
      split at read
      · cases read
        exact distinct.grown
      · exact ih distinct read
      · obtain ⟨⟨further, rest⟩, statement, read⟩ := Except.bind_eq_ok read
        have distinct := distinct_of_readStatement distinct statement
        obtain ⟨behind, _, read⟩ := Except.bind_eq_ok read
        split at read
        · cases read
          exact distinct.grown
        · exact ih distinct read
        · cases read

theorem distinct_of_document {text : String} {table : Table} (ended : read text = .ok table) :
    Value.Distinct (.table table) := by
  rw [read] at ended
  cases lines : readLinesOf ((unifyLineEnds text.toList).length + 1) {}
      (unifyLineEnds text.toList) with
  | error fault =>
      rw [lines] at ended
      cases ended
  | ok reached =>
      rw [lines] at ended
      cases ended
      exact distinct_of_readLinesOf _ .nil lines

end Toml

/-! ## Settings -/

namespace Settings

/-- **In settings that are read from a document, no table has a name twice.** -/
theorem distinct_of_ofBytes {content : Bytes} {settings : Settings}
    (read : ofBytes content = .ok settings) : Value.Distinct (.table settings.table) := by
  rw [ofBytes] at read
  cases decoded : Utf8.decode content with
  | error cause =>
      rw [decoded] at read
      cases read
  | ok text =>
      rw [decoded] at read
      dsimp only [ofText] at read
      cases document : Toml.read text with
      | error cause =>
          rw [document] at read
          cases read
      | ok table =>
          rw [document] at read
          cases read
          exact Toml.distinct_of_document document

theorem distinct_follow (path : List String) :
    ∀ {value found : Value}, value.Distinct → follow path value = some found → found.Distinct := by
  induction path with
  | nil =>
      intro value found distinct same
      cases same
      exact distinct
  | cons name path ih =>
      intro value found distinct leads
      cases value with
      | table entries =>
          obtain ⟨next, held, leads⟩ := Option.bind_eq_some_iff.mp leads
          cases distinct with
          | plain plain => cases plain
          | table _ nodes => exact ih (nodes _ (mem_of_lookup held)) leads
      | _ => cases leads

/-- A setting that is a table has every name once. -/
theorem nodup_of_get? {content : Bytes} {settings : Settings} {key : String} {entries : Table}
    (read : ofBytes content = .ok settings) (found : settings.get? key = some (.table entries)) :
    (entries.map Prod.fst).Nodup := by
  cases distinct_follow _ (distinct_of_ofBytes read) found with
  | plain plain => cases plain
  | table names _ => exact names

end Settings

end Septet
