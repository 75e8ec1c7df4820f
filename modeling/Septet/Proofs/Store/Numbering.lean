import Septet.Proofs.Store.Batches

/-!
# The numbers that a batch gives to new names

When every pair of a database is as a store writes it, the numbers that a batch gives out
can be told from the pairs and the batch alone.  The new names are those of the batch that
no pair holds, each at the place where it first occurs (`Database.freshNames`).  Those of
one digest are numbered in this order, and the first of them gets zero if no key begins
with the digest, or else the number after the greatest one behind it, wherever the key of
that stands among the others (`Database.FirstNumber`).

The numbers come from going through the pairs under a digest, and the new names from
looking each name up; both are brought back to the pairs here
(`Regular.firstNumber_of_nextNumber`, `Regular.newNames_eq`).  After the batch the keys are
those from before and one for each new name; a name that was stored keeps its key, and
every name of the batch has the fields that come last in it (`Store.putMany_numbers_names`).
-/

set_option autoImplicit false

namespace Septet

/-! ## First occurrences -/

section EraseDups

variable {α : Type} [BEq α] [LawfulBEq α] {list : List α} {last : α}

theorem eraseDups_concat_of_mem (there : last ∈ list) :
    (list ++ [last]).eraseDups = list.eraseDups := by
  simp [List.eraseDups_append, List.removeAll, there]

theorem eraseDups_concat_of_notMem (missing : last ∉ list) :
    (list ++ [last]).eraseDups = list.eraseDups ++ [last] := by
  simp [List.eraseDups_append, List.removeAll, missing, List.eraseDups_cons]

theorem nodup_eraseDups (list : List α) : list.eraseDups.Nodup := by
  induction list using List.reverseRecOn with
  | nil => simp
  | append_singleton list last ih =>
      by_cases there : last ∈ list
      · rwa [eraseDups_concat_of_mem there]
      · rw [eraseDups_concat_of_notMem there, ← List.concat_eq_append]
        exact ih.concat fun again => there (List.mem_eraseDups.mp again)

end EraseDups

namespace Database

/-! ## New names -/

/-- The names that the records of a database have. -/
def storedNames (database : Database) : List String :=
  database.pairs.filterMap fun pair => (Record.decode pair.2).toOption.map Record.name

/-- The names of records that are not stored, each once, in the order in which they first occur. -/
def freshNames (database : Database) (records : List Record) : List String :=
  (records.map Record.name).eraseDups.filter fun name => name ∉ database.storedNames

variable {database : Database} {hash : NameHash} {bound : Nat} {records : List Record}

theorem mem_storedNames {name : String} : name ∈ database.storedNames ↔
    ∃ pair ∈ database.pairs, ∃ record, Record.decode pair.2 = .ok record ∧ record.name = name := by
  simp only [storedNames, List.mem_filterMap, Option.map_eq_some_iff]
  refine exists_congr fun pair => and_congr_right fun _ => exists_congr fun record => ?_
  refine and_congr_left fun _ => ?_
  cases Record.decode pair.2 <;> simp [Except.toOption]

theorem mem_freshNames {name : String} : name ∈ database.freshNames records ↔
    (∃ record ∈ records, record.name = name) ∧ name ∉ database.storedNames := by
  simp [freshNames]

theorem nodup_freshNames (database : Database) (records : List Record) :
    (database.freshNames records).Nodup :=
  (nodup_eraseDups _).filter _

theorem Regular.find_eq_none_iff_notMem (regular : database.Regular hash bound) {name : String} :
    database.find hash name = .ok none ↔ name ∉ database.storedNames := by
  rw [regular.find_eq_none_iff, mem_storedNames]
  constructor
  · rintro others ⟨pair, member, record, holds, same⟩
    exact others pair member record holds same
  · exact fun none pair member record holds same => none ⟨pair, member, record, holds, same⟩

/-- The new names of a digest are the names with the digest among those that are not stored. -/
theorem Regular.newNames_eq (regular : database.Regular hash bound) (digest : Digest)
    (records : List Record) :
    database.newNames hash digest records =
      (database.freshNames records).filter fun name => hash name = digest := by
  induction records using List.reverseRecOn with
  | nil => simp [newNames, freshNames]
  | append_singleton records record ih =>
      rw [freshNames, List.map_append, List.map_singleton]
      by_cases old : record.name ∈ records.map Record.name
      · rw [eraseDups_concat_of_mem old, ← freshNames, ← ih]
        exact newNames_concat_of_old fun under absent =>
          mem_newNames.mpr ⟨List.mem_map.mp old, under, absent⟩
      · have missing : record.name ∉ database.newNames hash digest records := fun member =>
          old (List.mem_map.mpr (mem_newNames.mp member).1)
        rw [eraseDups_concat_of_notMem old, List.filter_append, ← freshNames, List.filter_append,
          ← ih, List.filter_filter]
        by_cases new : hash record.name = digest ∧ record.name ∉ database.storedNames
        · obtain ⟨rfl, fresh⟩ := new
          rw [newNames_concat_of_new (regular.find_eq_none_iff_notMem.mpr fresh) missing]
          simp [fresh]
        · rw [newNames_concat_of_old fun under absent =>
            absurd ⟨under, regular.find_eq_none_iff_notMem.mp absent⟩ new]
          simpa using new

theorem length_newNames_le (digest : Digest) (records : List Record) :
    (database.newNames hash digest records).length ≤ records.length := by
  induction records using List.reverseRecOn with
  | nil => exact Nat.le_refl 0
  | append_singleton records record ih =>
      rw [newNames_concat, addNew, List.length_append, List.length_singleton]
      split
      · rw [List.length_append, List.length_singleton]
        exact Nat.add_le_add_right ih 1
      · exact Nat.le_succ_of_le ih

/-- In a regular database there is room for the new names of a batch. -/
theorem Regular.roomFor (regular : database.Regular hash bound)
    (enough : bound + records.length ≤ 2 ^ 64) : database.RoomFor hash records := fun record _ =>
  (regular.hasRoom enough (hash record.name)).mono (length_newNames_le (hash record.name) records)

/-! ## First numbers -/

/-- The number that the first new name of a digest gets. -/
inductive FirstNumber (database : Database) (digest : Digest) : Nat → Prop where
  /-- No key begins with the digest. -/
  | zero (none : ∀ pair ∈ database.pairs, ¬digest.bytes <+: pair.1) : FirstNumber database digest 0
  /-- The greatest number behind the digest comes before it. -/
  | next {greatest : Nat} (below : greatest < 2 ^ 64)
      (used : database.Uses (keyOf digest greatest))
      (others : ∀ number < 2 ^ 64, database.Uses (keyOf digest number) → number ≤ greatest) :
      FirstNumber database digest (greatest + 1)

/-- The next number of a digest comes behind the greatest one, whatever the order of the keys. -/
theorem Regular.firstNumber_of_nextNumber (regular : database.Regular hash bound)
    (small : bound ≤ 2 ^ 64) {digest : Digest} {first : Nat}
    (next : database.nextNumber digest = .ok first) : database.FirstNumber digest first := by
  obtain ⟨actual, result, _, greater, attained⟩ :=
    numberAfter_of_numbered (numbered_of_numberAfter next) 0
  cases next.symm.trans result
  -- a pair under the digest has a number of 64 bits behind it
  have numbered : ∀ pair ∈ database.under digest.bytes, ∃ number : Nat, number < 2 ^ 64 ∧
      pair.1 = Quantity.encode .bits64 number ∧ Quantity.decode .bits64 pair.1 0 =
        .ok ⟨number, (Quantity.encode .bits64 number).length⟩ := by
    intro pair inside
    obtain ⟨number, below, key⟩ := regular.number_of_mem_under inside
    have small := Nat.lt_of_lt_of_le below small
    exact ⟨number, small, key, key ▸ decode_encode_number small⟩
  rcases attained with rfl | ⟨pair, inside, decoded, found, rfl⟩
  · refine .zero fun pair member => ?_
    rintro ⟨rest, same⟩
    have inside : (rest, pair.2) ∈ database.under digest.bytes :=
      (mem_under _ _).mpr (same ▸ member)
    obtain ⟨number, _, _, read⟩ := numbered _ inside
    exact Nat.not_lt_zero _ (greater _ inside _ read)
  · obtain ⟨number, below, key, read⟩ := numbered pair inside
    cases found.symm.trans read
    refine .next below ⟨_, (mem_under _ _).mp inside, congrArg (digest.bytes ++ ·) key⟩ ?_
    exact fun other small used => Nat.le_of_lt_succ (lt_of_uses next small used)

/-! ## What a batch leaves -/

/-- The keys of the pairs of a database, in order. -/
def keys (database : Database) : List Bytes :=
  database.pairs.map Prod.fst

theorem mem_keys {key : Bytes} : key ∈ database.keys ↔ database.Uses key :=
  List.mem_map

theorem nodup_keys (database : Database) : database.keys.Nodup := by
  refine List.pairwise_map.mpr (database.sorted.imp ?_)
  intro first second before same
  exact List.lt_irrefl _ (same ▸ before)

theorem mem_keys_insert {key written value : Bytes} :
    key ∈ (database.insert written value).keys ↔ key ∈ database.keys ∨ key = written := by
  simp only [mem_keys, Uses, insert, mem_insertPair database.sorted]
  constructor
  · rintro ⟨pair, rfl | ⟨member, _⟩, rfl⟩
    · exact .inr rfl
    · exact .inl ⟨pair, member, rfl⟩
  · rintro (⟨pair, member, rfl⟩ | rfl)
    · by_cases same : pair.1 = written
      · exact ⟨_, .inl rfl, same.symm⟩
      · exact ⟨pair, .inr ⟨member, same⟩, rfl⟩
    · exact ⟨_, .inl rfl, rfl⟩

theorem mem_keys_insertAll {key : Bytes} (pairs : List Pair) : ∀ {database : Database},
    key ∈ (database.insertAll pairs).keys ↔ key ∈ database.keys ∨ key ∈ pairs.map Prod.fst := by
  induction pairs with
  | nil => simp [insertAll]
  | cons written rest ih =>
      intro database
      rw [insertAll, List.foldl_cons, ← insertAll, ih, mem_keys_insert, List.map_cons,
        List.mem_cons, or_assoc]

theorem lastFields_eq_none_iff {name : String} :
    lastFields name records = none ↔ ∀ record ∈ records, record.name ≠ name := by
  simp [lastFields]

/-- A name of the records that are written has the fields that come last, under the key that is
allotted to it. -/
theorem exists_mem_insertAll_of_written (room : database.RoomFor hash records) {some : List Record}
    {pairs : List Pair} (written : List.Forall₂ (fun record pair =>
      database.Allotted hash records record.name pair.1 ∧ pair.2 = record.encode) some pairs)
    {name : String} {fields : List Bytes} :
    ∀ {before : Database}, lastFields name some = .some fields →
      ∃ key, database.Allotted hash records name key ∧
        (key, (Record.mk name fields).encode) ∈ (before.insertAll pairs).pairs := by
  induction written with
  | nil =>
      intro before last
      cases last
  | @cons record pair some rest here later ih =>
      intro before last
      rw [insertAll, List.foldl_cons, ← insertAll]
      rw [lastFields_cons] at last
      cases others : lastFields name some with
      | some fields =>
          rw [others] at last
          exact ih (others.trans last)
      | none =>
          rw [others, Option.none_or] at last
          split at last
          · next same =>
              cases last
              subst same
              refine ⟨pair.1, here.1, ?_⟩
              rw [mem_insertAll_of_forall_ne _ fun other member => ?_]
              · exact (mem_insertPair before.sorted).mpr (.inl (Prod.ext rfl here.2.symm))
              · -- no later record has the name, so none has its key
                obtain ⟨again, inside, allotted⟩ := exists_allotted_of_written later other member
                exact here.1.ne allotted room
                  (Ne.symm (lastFields_eq_none_iff.mp others again inside))
          · cases last

/-! ## Numbers that are given out -/

/-- The number of a new name among those of its digest, if these begin with a first one. -/
def numberOf (database : Database) (hash : NameHash) (first : Digest → Nat) (records : List Record)
    (name : String) : Nat :=
  first (hash name) + (database.newNames hash (hash name) records).idxOf name

/-- The new names of a digest have the numbers from the first one on, in their order. -/
theorem Regular.map_numberOf (regular : database.Regular hash bound) (first : Digest → Nat)
    (digest : Digest) :
    ((database.freshNames records).filter fun name => hash name = digest).map
        (database.numberOf hash first records) =
      List.range' (first digest)
        ((database.freshNames records).filter fun name => hash name = digest).length := by
  have once := (nodup_freshNames database records).filter fun name => hash name = digest
  rw [← regular.newNames_eq digest records] at once ⊢
  refine List.ext_getElem (by simp) fun index inside _ => ?_
  rw [List.length_map] at inside
  have alike : hash (database.newNames hash digest records)[index] = digest :=
    (mem_newNames.mp (List.getElem_mem inside)).2.1
  rw [List.getElem_map, List.getElem_range', numberOf, alike, once.idxOf_getElem, Nat.one_mul]

section Numbered

variable {first : Digest → Nat} (next : ∀ digest, database.nextNumber digest = .ok (first digest))
include next

/-- The key that is allotted to a name that is not stored has its number. -/
theorem Allotted.eq_keyOf {name : String} {key : Bytes}
    (allotted : database.Allotted hash records name key)
    (absent : database.find hash name = .ok none) :
    key = keyOf (hash name) (database.numberOf hash first records name) := by
  cases allotted with
  | stored there => cases absent.symm.trans there
  | new _ same =>
      cases (next (hash name)).symm.trans same
      rfl

variable (regular : database.Regular hash bound)
include regular

theorem Regular.allotted_of_fresh {name : String} (fresh : name ∈ database.freshNames records) :
    database.find hash name = .ok none ∧ database.Allotted hash records name
      (keyOf (hash name) (database.numberOf hash first records name)) := by
  obtain ⟨occurs, missing⟩ := mem_freshNames.mp fresh
  have absent := regular.find_eq_none_iff_notMem.mpr missing
  exact ⟨absent, .new (mem_newNames.mpr ⟨occurs, rfl, absent⟩) (next (hash name))⟩

variable (enough : bound + records.length ≤ 2 ^ 64)
include enough

theorem Regular.nodup_keys_append : (database.keys ++ (database.freshNames records).map fun name =>
    keyOf (hash name) (database.numberOf hash first records name)).Nodup := by
  have room := regular.roomFor enough
  refine (nodup_keys database).append ((nodup_freshNames database records).map_on ?_) ?_
  · intro one oneFresh other otherFresh same
    by_contra different
    exact (regular.allotted_of_fresh next oneFresh).2.ne (regular.allotted_of_fresh next otherFresh).2
      room different same
  · intro key old new
    obtain ⟨name, fresh, rfl⟩ := List.mem_map.mp new
    obtain ⟨absent, allotted⟩ := regular.allotted_of_fresh next fresh
    exact allotted.not_uses room absent (mem_keys.mp old)

variable {pairs : List Pair} (written : List.Forall₂ (fun record pair =>
  database.Allotted hash records record.name pair.1 ∧ pair.2 = record.encode) records pairs)
include written

/-- A new name has the fields that come last, under its number. -/
theorem Regular.mem_of_fresh {name : String} (fresh : name ∈ database.freshNames records) :
    ∃ fields, lastFields name records = some fields ∧
      (keyOf (hash name) (database.numberOf hash first records name),
        (Record.mk name fields).encode) ∈ (database.insertAll pairs).pairs := by
  obtain ⟨⟨record, member, same⟩, _⟩ := mem_freshNames.mp fresh
  cases last : lastFields name records with
  | none => exact absurd same (lastFields_eq_none_iff.mp last record member)
  | some fields =>
      obtain ⟨key, allotted, there⟩ :=
        exists_mem_insertAll_of_written (regular.roomFor enough) written last
      rw [allotted.eq_keyOf next (regular.allotted_of_fresh next fresh).1] at there
      exact ⟨fields, rfl, there⟩

omit next in
/-- A name that is stored keeps its key, with the fields that come last for it. -/
theorem Regular.mem_of_stored {pair : Pair} (member : pair ∈ database.pairs) {record : Record}
    (holds : Record.decode pair.2 = .ok record) :
    (pair.1, (Record.mk record.name
      ((lastFields record.name records).getD record.fields)).encode) ∈
        (database.insertAll pairs).pairs := by
  have room := regular.roomFor enough
  cases last : lastFields record.name records with
  | none =>
      obtain ⟨stored, _, _, _, rfl, stores⟩ := regular.exists_record member
      cases stores.symm.trans holds
      refine mem_insertAll_of_written written room member fun other inside found there same => ?_
      obtain ⟨value, atKey, holdsOther⟩ := exists_pair_of_find there
      have values : value = record.encode :=
        congrArg Prod.snd (database.sorted.eq_of_key atKey member same)
      rw [values, stores] at holdsOther
      exact lastFields_eq_none_iff.mp last other inside
        (congrArg Record.name (Except.ok.inj holdsOther)).symm
  | some fields =>
      obtain ⟨key, allotted, there⟩ := exists_mem_insertAll_of_written room written last
      rcases (allotted_iff ..).mp allotted with ⟨found, stored, rfl⟩ | ⟨_, new, _, _⟩
      · rwa [regular.key_of_find stored member holds rfl]
      · exact absurd rfl
          (regular.find_eq_none_iff.mp (mem_newNames.mp new).2.2 pair member record holds)

/-- **The keys after a batch** are those before it and those of the new names. -/
theorem Regular.keys_perm : (database.insertAll pairs).keys.Perm
    (database.keys ++ (database.freshNames records).map fun name =>
      keyOf (hash name) (database.numberOf hash first records name)) := by
  refine (List.perm_ext_iff_of_nodup (nodup_keys _)
    (regular.nodup_keys_append next enough)).mpr fun key => ?_
  rw [List.mem_append]
  constructor
  · intro there
    rcases (mem_keys_insertAll pairs).mp there with old | new
    · exact .inl old
    · obtain ⟨pair, inside, rfl⟩ := List.mem_map.mp new
      obtain ⟨record, member, allotted⟩ := exists_allotted_of_written written pair inside
      rcases (allotted_iff ..).mp allotted with ⟨found, stored, same⟩ | ⟨_, new, _, _⟩
      · exact .inl (mem_keys.mpr (same ▸ uses_of_find stored))
      · have absent := (mem_newNames.mp new).2.2
        have fresh : record.name ∈ database.freshNames records :=
          mem_freshNames.mpr ⟨⟨record, member, rfl⟩, regular.find_eq_none_iff_notMem.mp absent⟩
        exact .inr (List.mem_map.mpr ⟨_, fresh, (allotted.eq_keyOf next absent).symm⟩)
  · rintro (old | new)
    · exact (mem_keys_insertAll pairs).mpr (.inl old)
    · obtain ⟨name, fresh, rfl⟩ := List.mem_map.mp new
      obtain ⟨fields, _, there⟩ := regular.mem_of_fresh next enough written fresh
      exact List.mem_map_of_mem there

end Numbered

/-- A regular database is legible for records that there are numbers for. -/
theorem Regular.legible (regular : database.Regular hash bound)
    (enough : bound + records.length ≤ 2 ^ 64) : database.Legible hash records := by
  intro record _ pair inside
  obtain ⟨stored, _, _, _, _, holds⟩ := regular.exists_record ((mem_under _ _).mp inside)
  obtain ⟨number, below, key⟩ := regular.number_of_mem_under inside
  have read := decode_encode_number (by omega : number < 2 ^ 64)
  exact ⟨⟨stored, holds⟩, _, key ▸ read, by dsimp only; omega⟩

end Database

namespace Store

variable {session : Session} {opening : Opening} {hash : NameHash} {bound : Nat}
  {records : List Record}

/-- **What a batch makes of the keys.**  The keys after it are those from before and one for each new
name.  What was stored keeps its key, with the fields that come last for its name.  The new names of
each digest, in the order in which they first occur, have the numbers from the first one on. -/
theorem putMany_numbers_names (ready : session.Ready opening)
    (regular : (session.database opening).Regular hash bound)
    (within : session.store.options.maxBatchSize.lessThan records.length = false)
    (enough : bound + records.length ≤ 2 ^ 64) :
    ∃ after number, putMany hash records session = .ok () after ∧
      (after.database opening).keys.Perm ((session.database opening).keys ++
        ((session.database opening).freshNames records).map fun name =>
          Database.keyOf (hash name) (number name)) ∧
      (∀ pair ∈ (session.database opening).pairs, ∀ record, Record.decode pair.2 = .ok record →
        (pair.1, (Record.mk record.name
          ((Database.lastFields record.name records).getD record.fields)).encode) ∈
            (after.database opening).pairs) ∧
      (∀ name ∈ (session.database opening).freshNames records,
        ∃ fields, Database.lastFields name records = some fields ∧
          (Database.keyOf (hash name) (number name), (Record.mk name fields).encode) ∈
            (after.database opening).pairs) ∧
      ∀ digest, ∃ first, (session.database opening).FirstNumber digest first ∧
        first + (((session.database opening).freshNames records).filter fun name =>
            hash name = digest).length ≤ 2 ^ 64 ∧
        (((session.database opening).freshNames records).filter fun name =>
            hash name = digest).map number =
          List.range' first (((session.database opening).freshNames records).filter fun name =>
            hash name = digest).length := by
  have small : bound ≤ 2 ^ 64 := by omega
  choose first next _ using regular.exists_nextNumber small
  obtain ⟨written, taken⟩ := (regular.legible enough).exists_putMany within
  obtain ⟨after, done, _, holds, _⟩ := putMany_ok ready taken
  obtain ⟨pairs, rfl, allotted⟩ := Database.exists_allotted_of_putMany taken
  refine ⟨after, (session.database opening).numberOf hash first records, done, ?_, ?_, ?_, ?_⟩
  · rw [holds]
    exact regular.keys_perm next enough allotted
  · rw [holds]
    exact fun pair member record stores => regular.mem_of_stored enough allotted member stores
  · rw [holds]
    exact fun name fresh => regular.mem_of_fresh next enough allotted fresh
  · intro digest
    refine ⟨first digest, regular.firstNumber_of_nextNumber small (next digest), ?_,
      regular.map_numberOf first digest⟩
    have room := regular.hasRoom enough digest (first digest) (next digest)
    rw [← regular.newNames_eq digest records]
    exact Nat.le_trans (Nat.add_le_add_left (Database.length_newNames_le digest records) _) room

/-- The key of 255 comes before that of 128. -/
def outOfOrder : Database :=
  Database.empty.insertAll
    [(Database.keyOf .zeros 128, (Record.mk "a" []).encode),
      (Database.keyOf .zeros 255, (Record.mk "b" []).encode)]

theorem putMany_numbers_names_outOfOrder :
    outOfOrder.keys = [Database.keyOf .zeros 255, Database.keyOf .zeros 128] ∧
      ∃ after, putMany (fun _ => .zeros) [⟨"d", []⟩, ⟨"a", [[1]]⟩, ⟨"c", []⟩, ⟨"d", [[2]]⟩]
          (Session.holding outOfOrder) = .ok () after ∧
        (Database.keyOf .zeros 256, (Record.mk "d" [[2]]).encode) ∈ (after.database ⟨0, []⟩).pairs ∧
        (Database.keyOf .zeros 257, (Record.mk "c" []).encode) ∈ (after.database ⟨0, []⟩).pairs := by
  have keys : outOfOrder.keys = [Database.keyOf .zeros 255, Database.keyOf .zeros 128] := by
    decide +kernel
  have pairs : outOfOrder.pairs =
      [⟨255, ⟨"b", []⟩⟩, ⟨128, ⟨"a", []⟩⟩].map (Entry.pair fun _ => .zeros) := by decide +kernel
  have regular : outOfOrder.Regular (fun _ => .zeros) 256 :=
    Database.regular_of_entries pairs (by decide +kernel) (by decide)
  have names : outOfOrder.freshNames [⟨"d", []⟩, ⟨"a", [[1]]⟩, ⟨"c", []⟩, ⟨"d", [[2]]⟩] =
      ["d", "c"] := by decide +kernel
  obtain ⟨after, number, done, _, _, fresh, numbered⟩ := @putMany_numbers_names _ _ (fun _ => .zeros)
    _ [⟨"d", []⟩, ⟨"a", [[1]]⟩, ⟨"c", []⟩, ⟨"d", [[2]]⟩] (Session.ready_holding outOfOrder) regular
    (by decide) (by decide)
  rw [Session.database_holding, names] at fresh numbered
  obtain ⟨first, least, _, both⟩ := numbered .zeros
  have used : outOfOrder.Uses (Database.keyOf .zeros 255) :=
    Database.mem_keys.mp (keys ▸ List.mem_cons_self)
  -- 255 is the greatest of the two numbers that are in use
  have begins : first = 256 := by
    cases least with
    | zero none =>
        obtain ⟨pair, member, same⟩ := used
        exact absurd (same ▸ List.prefix_append _ _) (none pair member)
    | @next greatest below there others =>
        have least := others 255 (by decide) used
        have among := Database.mem_keys.mpr there
        rw [keys, List.mem_pair] at among
        rcases among with same | same
        · exact congrArg (· + 1) (Database.keyOf_inj below (by decide) same).2
        · have small := (Database.keyOf_inj below (by decide) same).2
          omega
  have numbers : number "d" = 256 ∧ number "c" = 257 := by simpa [begins, List.range'] using both
  obtain ⟨_, last, stands⟩ := fresh "d" (by decide)
  obtain ⟨_, otherLast, otherStands⟩ := fresh "c" (by decide)
  cases last
  cases otherLast
  rw [numbers.1] at stands
  rw [numbers.2] at otherStands
  exact ⟨keys, after, done, stands, otherStands⟩

end Store

end Septet
