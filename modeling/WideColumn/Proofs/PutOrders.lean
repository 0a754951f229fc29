import Mathlib.Data.List.Nodup
import WideColumn.Proofs.CellHistory
import WideColumn.Proofs.DataAccess
import WideColumn.Proofs.TableCalls

/-!
# Writes in any order

A write at a timestamp takes its place in the chain of its column and drops what is then beyond the
limit of the family. What it drops, a later write would have dropped as well
(`WideColumn.Chain.take_insertVersion_take`), and versions at different timestamps may be inserted
in any order (`WideColumn.Chain.insertVersion_comm`), so writes to different cells or timestamps
commute (`WideColumn.Table.written_comm`). Nor does it depend on the order which of them succeed
(`WideColumn.Store.each_puts_iff`). `WideColumn.Store.puts_in_any_order` says what they come to: the
newest of all versions that are written or were there (`WideColumn.Chain.merged`).
-/

namespace WideColumn

open Catalog

/-- Whether a version is as new as another or newer. -/
def Version.isNotOlder (version other : Version) : Bool :=
  other.timestamp ≤ version.timestamp

/-- A version is not older than another one if its timestamp is not less. -/
theorem Version.isNotOlder_iff {version other : Version} :
    version.isNotOlder other = true ↔ other.timestamp ≤ version.timestamp :=
  decide_eq_true_iff

namespace Chain

variable {list stored written : List Version} {timestamp : Nat} {value : Bytes} {limit : Nat}

/-- Versions at two timestamps may be inserted in any order. -/
theorem insertVersion_comm {first second : Nat} (different : first ≠ second) (a b : Bytes)
    (list : List Version) :
    insertVersion second b (insertVersion first a list) =
      insertVersion first a (insertVersion second b list) := by
  induction list with
  | nil => grind [insertVersion]
  | cons version older ih =>
      -- Only if both timestamps are before the first version do both insertions go further down.
      grind [insertVersion]

/-- What a limit drops before an insertion, it would drop after it. -/
theorem take_insertVersion_take (timestamp : Nat) (value : Bytes) (list : List Version)
    (limit : Nat) :
    (insertVersion timestamp value (list.take limit)).take limit =
      (insertVersion timestamp value list).take limit := by
  induction list generalizing limit with
  | nil => rw [List.take_nil]
  | cons version older ih =>
      cases limit with
      | zero => rfl
      | succ limit =>
          rw [List.take_succ_cons, insertVersion, insertVersion]
          split
          · rw [List.take_succ_cons, List.take_succ_cons, ih]
          · split
            · rw [List.take_succ_cons, List.take_succ_cons, List.take_take, Nat.min_self]
            · rw [List.take_succ_cons, List.take_succ_cons]
              cases limit with
              | zero => rfl
              | succ limit =>
                  rw [List.take_succ_cons, List.take_succ_cons, List.take_take,
                    Nat.min_eq_left (Nat.le_succ limit)]

/-- So writes at two timestamps may be made in any order. -/
theorem put_comm (chain : Chain) {first second : Nat} (different : first ≠ second) (a b : Bytes)
    (limit : Nat) : (chain.put first a limit).put second b limit =
      (chain.put second b limit).put first a limit := by
  apply Chain.ext
  simp only [put, trim]
  rw [take_insertVersion_take, take_insertVersion_take, insertVersion_comm different]

/-- An insertion replaces the version at its timestamp, if there is one. -/
theorem perm_insertVersion (newestFirst : list.Pairwise fun a b => b.timestamp < a.timestamp)
    (timestamp : Nat) (value : Bytes) :
    (insertVersion timestamp value list).Perm
      (⟨timestamp, value⟩ :: list.filter fun version => version.timestamp != timestamp) := by
  induction list with
  | nil => exact .refl _
  | cons version older ih =>
      obtain ⟨behind, later⟩ := List.pairwise_cons.mp newestFirst
      have apart (below : version.timestamp ≤ timestamp) :
          (older.filter fun other => other.timestamp != timestamp) = older := by
        refine List.filter_eq_self.mpr fun other member => ?_
        have before := behind other member
        exact bne_iff_ne.mpr (Nat.ne_of_lt (Nat.lt_of_lt_of_le before below))
      rw [insertVersion]
      split
      next before =>
        rw [List.filter_cons_of_pos (by simp; omega)]
        exact ((ih later).cons version).trans (.swap _ _ _)
      next notBefore =>
        split
        next same =>
          rw [List.filter_cons_of_neg (by simp [same]), apart (Nat.le_of_eq same.symm)]
        next different =>
          rw [List.filter_cons_of_pos (by simp; omega), apart (by omega)]

/-- Whether one of several versions has the timestamp of another, and so takes its place. -/
def replaced (written : List Version) (version : Version) : Bool :=
  written.any fun other => other.timestamp == version.timestamp

/-- The versions of a column after others have been written into it, were all of them kept: those
written and those stored at other timestamps, the newest first. -/
def merged (written stored : List Version) : List Version :=
  (written ++ stored.filter fun version => !replaced written version).mergeSort
    Version.isNotOlder

/-- Versions inserted one after the other. -/
def insertAll (written stored : List Version) : List Version :=
  written.foldl (fun list version => insertVersion version.timestamp version.value list) stored

/-- Versions that are inserted stand in order. -/
theorem pairwise_insertAll (newestFirst : stored.Pairwise fun a b => b.timestamp < a.timestamp) :
    (insertAll written stored).Pairwise fun a b => b.timestamp < a.timestamp := by
  induction written generalizing stored with
  | nil => exact newestFirst
  | cons version rest ih => exact ih (pairwise_insertVersion newestFirst)

/-- The versions after an insertion are those written and the stored ones that they do not
replace. -/
theorem perm_insertAll (newestFirst : stored.Pairwise fun a b => b.timestamp < a.timestamp)
    (distinct : (written.map Version.timestamp).Nodup) :
    (insertAll written stored).Perm
      (written ++ stored.filter fun version => !replaced written version) := by
  induction written generalizing stored with
  | nil => simp [insertAll, replaced]
  | cons version rest ih =>
      obtain ⟨fresh, others⟩ := List.nodup_cons.mp distinct
      -- None of the versions that follow takes the place of the first.
      have kept : (!replaced rest version) = true := by
        simp only [replaced, Bool.not_eq_true', List.any_eq_false, beq_iff_eq]
        intro other member same
        exact fresh (List.mem_map.mpr ⟨other, member, same⟩)
      have inserted := (perm_insertVersion newestFirst version.timestamp version.value).filter
        fun stored => !replaced rest stored
      rw [List.filter_cons, if_pos kept, List.filter_filter] at inserted
      have left : (stored.filter fun stored =>
            !replaced rest stored && stored.timestamp != version.timestamp) =
          stored.filter fun stored => !replaced (version :: rest) stored := by
        refine List.filter_congr fun other _ => ?_
        rw [replaced, replaced, List.any_cons, Bool.not_or, Bool.and_comm, bne, BEq.comm]
      rw [left] at inserted
      exact (ih (pairwise_insertVersion newestFirst) others).trans
        ((inserted.append_left rest).trans List.perm_middle)

/-- Merged versions stand in order. -/
theorem pairwise_merged (written stored : List Version) :
    (merged written stored).Pairwise fun a b => a.isNotOlder b = true := by
  refine List.pairwise_mergeSort (fun a b c first second => ?_) (fun a b => ?_) _
  · exact Version.isNotOlder_iff.mpr (Nat.le_trans (Version.isNotOlder_iff.mp second)
      (Version.isNotOlder_iff.mp first))
  · rw [Bool.or_eq_true, Version.isNotOlder_iff, Version.isNotOlder_iff]
    exact Nat.le_total _ _

/-- Versions at different timestamps take their places among those that they do not replace. -/
theorem insertAll_eq_merged (newestFirst : stored.Pairwise fun a b => b.timestamp < a.timestamp)
    (distinct : (written.map Version.timestamp).Nodup) :
    insertAll written stored = merged written stored := by
  have ordered : (insertAll written stored).Pairwise fun a b => b.timestamp < a.timestamp :=
    pairwise_insertAll newestFirst
  have stamps : ((insertAll written stored).map Version.timestamp).Nodup :=
    List.pairwise_map.mpr (ordered.imp fun below => Nat.ne_of_gt below)
  have sorted := pairwise_merged written stored
  have same : (insertAll written stored).Perm (merged written stored) :=
    (perm_insertAll newestFirst distinct).trans (List.mergeSort_perm _ Version.isNotOlder).symm
  refine List.Perm.eq_of_pairwise (fun a b listed listed' newer older => ?_)
    (ordered.imp fun below => Version.isNotOlder_iff.mpr (Nat.le_of_lt below)) sorted same
  have equal : a.timestamp = b.timestamp :=
    Nat.le_antisymm (Version.isNotOlder_iff.mp older) (Version.isNotOlder_iff.mp newer)
  exact List.inj_on_of_nodup_map stamps listed (same.mem_iff.mpr listed') equal

/-- If what is stored is within a limit, cutting down to it after every insertion drops as much as
doing so once. -/
theorem foldl_take_insertVersion (within : stored.length ≤ limit) (written : List Version) :
    written.foldl (fun list version =>
      (insertVersion version.timestamp version.value list).take limit) stored =
        (insertAll written stored).take limit := by
  have cut (list : List Version) : written.foldl (fun list version =>
      (insertVersion version.timestamp version.value list).take limit) (list.take limit) =
        (insertAll written list).take limit := by
    induction written generalizing list with
    | nil => rfl
    | cons version rest ih =>
        rw [List.foldl_cons, take_insertVersion_take, ih]
        rfl
  have whole := cut stored
  rwa [List.take_of_length_le within] at whole

end Chain

/-- What a write is addressed to: a cell and a timestamp. -/
def PutRequest.address (request : PutRequest) : Bytes × Column × Option Nat :=
  (request.row, ⟨request.family, request.qualifier⟩, request.timestamp)

/-- The version that a write at a timestamp puts into a cell, if it is addressed to the cell. -/
def PutRequest.versionIn? (request : PutRequest) (key : Bytes) (column : Column) :
    Option Version :=
  if request.row = key ∧ ⟨request.family, request.qualifier⟩ = column then
    request.timestamp.map fun timestamp => ⟨timestamp, request.value⟩
  else none

/-- A put that makes a version is addressed to its place and time. -/
theorem PutRequest.address_of_versionIn? {request : PutRequest} {key : Bytes} {column : Column}
    {version : Version} (put : request.versionIn? key column = some version) :
    request.address = (key, column, some version.timestamp) := by
  unfold versionIn? at put
  split at put
  next here =>
    obtain ⟨timestamp, stamped, rfl⟩ := Option.map_eq_some_iff.mp put
    rw [address, here.1, here.2, stamped]
  next => cases put

/-- Writes that are addressed to different cells or timestamps put versions at different timestamps
into a cell. -/
theorem nodup_timestamps {requests : List PutRequest}
    (distinct : (requests.map PutRequest.address).Nodup) (key : Bytes) (column : Column) :
    ((requests.filterMap (·.versionIn? key column)).map Version.timestamp).Nodup := by
  refine List.pairwise_map.mpr (List.pairwise_filterMap.mpr ?_)
  refine (List.pairwise_map.mp distinct).imp fun {first second} different => ?_
  intro version put other put' same
  have addressed := PutRequest.address_of_versionIn? put
  rw [same] at addressed
  exact different (addressed.trans (PutRequest.address_of_versionIn? put').symm)

/-- The family and the timestamp of a write, if the schema has the family and there is a
timestamp. -/
def Schema.terms? (schema : Schema) (request : PutRequest) : Option (Family × Nat) :=
  (schema.familyOfBytes? request.family).bind fun family =>
    request.timestamp.map fun timestamp => (family, timestamp)

/-- The terms of a put are its family and its timestamp. -/
theorem Schema.terms?_eq_some_iff {schema : Schema} {request : PutRequest} {family : Family}
    {timestamp : Nat} : schema.terms? request = some (family, timestamp) ↔
      schema.familyOfBytes? request.family = some family ∧ request.timestamp = some timestamp := by
  unfold terms?
  cases schema.familyOfBytes? request.family <;> cases request.timestamp <;> simp

namespace Table

variable {table changed : Table} {request : PutRequest}

/-- Writes into one table at different cells or timestamps may be made in any order, if they keep
the same number of versions of a column. -/
theorem putCell_comm (table : Table) {first second : Bytes} {column other : Column}
    {early late limit limit' : Nat} (a b : Bytes)
    (apart : (first, column, early) ≠ (second, other, late))
    (limits : column = other → limit = limit') :
    (table.putCell first column early a limit).putCell second other late b limit' =
      (table.putCell second other late b limit').putCell first column early a limit := by
  refine congrArg (fun rows => { table with rows }) ?_
  by_cases rows : first = second
  · subst rows
    simp only [putCell, SortedMap.upsert_upsert_self]
    refine congrArg (table.rows.upsert first) (funext fun row => ?_)
    by_cases columns : column = other
    · subst columns
      have times : early ≠ late := fun same => apart (by rw [same])
      obtain rfl := limits rfl
      simp only [Option.getD_some, SortedMap.upsert_upsert_self]
      refine congrArg (SortedMap.upsert _ column) (funext fun chain => ?_)
      exact Chain.put_comm _ times a b limit
    · simp only [Option.getD_some]
      exact SortedMap.upsert_comm _ columns _ _
  · exact SortedMap.upsert_comm _ rows _ _

/-- The table after a write at a timestamp, but for the load of its regions. A write without a
timestamp, or of a family that the schema does not have, is left out. -/
def written (table : Table) (request : PutRequest) : Table :=
  (table.schema.terms? request).elim table fun terms =>
    table.putCell request.row ⟨request.family, request.qualifier⟩ terms.2 request.value
      terms.1.versions

/-- A put leaves the frame of a table. -/
theorem framed_written (table : Table) (request : PutRequest) :
    table.Framed (table.written request) := by
  unfold written
  cases table.schema.terms? request with
  | none => exact .refl table
  | some terms => exact table.framed_putCell _ _ _ _ _

/-- Puts with different addresses may be exchanged. -/
theorem written_comm (table : Table) {first second : PutRequest}
    (apart : first.address ≠ second.address) :
    (table.written first).written second = (table.written second).written first := by
  have again (former request : PutRequest) : (table.written former).written request =
      (table.schema.terms? request).elim (table.written former) fun terms =>
        (table.written former).putCell request.row ⟨request.family, request.qualifier⟩ terms.2
          request.value terms.1.versions := by
    rw [written, (table.framed_written former).schema]
  rw [again, again]
  unfold written
  cases early : table.schema.terms? first with
  | none => rfl
  | some terms =>
      cases late : table.schema.terms? second with
      | none => rfl
      | some terms' =>
          obtain ⟨known, stamped⟩ := Schema.terms?_eq_some_iff.mp early
          obtain ⟨known', stamped'⟩ := Schema.terms?_eq_some_iff.mp late
          refine table.putCell_comm _ _ (fun same => apart ?_) fun same => ?_
          · obtain ⟨row, column, timestamp⟩ := Prod.mk.inj same |>.imp_right Prod.mk.inj
            exact Prod.ext row (Prod.ext column (by
              rw [PutRequest.address, PutRequest.address, stamped, stamped', timestamp]))
          · have family : first.family = second.family := congrArg Column.family same
            rw [family] at known
            exact congrArg Family.versions (Option.some.inj (known.symm.trans known'))

/-- Writes at different cells or timestamps may be made in any order. -/
theorem foldl_written_perm {requests order : List PutRequest} (reordered : order.Perm requests)
    (distinct : (requests.map PutRequest.address).Nodup) (table : Table) :
    order.foldl written table = requests.foldl written table := by
  refine (reordered.symm.foldl_eq' (fun first listed second listed' table => ?_) table).symm
  by_cases same : first.address = second.address
  · rw [List.inj_on_of_nodup_map distinct listed listed' same]
  · exact table.written_comm same

/-- A write shows in the cell it is addressed to and nowhere else. -/
theorem versions_written (table : Table) (request : PutRequest) {key : Bytes} {column : Column}
    {family : Family} (known : table.schema.familyOfBytes? column.family = some family) :
    (table.written request).versions key column =
      (request.versionIn? key column).elim (table.versions key column) fun version =>
        (Chain.insertVersion version.timestamp version.value (table.versions key column)).take
          family.keptVersions := by
  unfold written PutRequest.versionIn?
  by_cases here : request.row = key ∧ ⟨request.family, request.qualifier⟩ = column
  · obtain ⟨rfl, rfl⟩ := here
    rw [if_pos ⟨rfl, rfl⟩, Schema.terms?, known]
    cases request.timestamp with
    | none => rfl
    | some timestamp => exact table.versions_putCell_self _ _ _ _ _
  · rw [if_neg here]
    cases table.schema.terms? request with
    | none => rfl
    | some terms =>
        refine table.versions_putCell_of_ne _ _ _ ?_
        by_cases same : key = request.row
        · exact .inr fun same' => here ⟨same.symm, same'.symm⟩
        · exact .inl same

/-- A column holds, after puts, the versions inserted into it, cut to the limit. -/
theorem versions_foldl_written (requests : List PutRequest) (table : Table) {key : Bytes}
    {column : Column} {family : Family}
    (known : table.schema.familyOfBytes? column.family = some family) :
    (requests.foldl written table).versions key column =
      (requests.filterMap (·.versionIn? key column)).foldl (fun list version =>
        (Chain.insertVersion version.timestamp version.value list).take family.keptVersions)
        (table.versions key column) := by
  induction requests generalizing table with
  | nil => rfl
  | cons request rest ih =>
      have known' : (table.written request).schema.familyOfBytes? column.family = some family := by
        rw [(table.framed_written request).schema, known]
      rw [List.foldl_cons, ih _ known', table.versions_written request known, List.filterMap_cons]
      cases request.versionIn? key column <;> rfl

/-- After writes at different cells or timestamps, a column holds the newest of the versions written
and of those that they have not replaced. -/
theorem Capped.versions_foldl_written (capped : table.Capped) {requests : List PutRequest}
    (distinct : (requests.map PutRequest.address).Nodup) {key : Bytes} {column : Column}
    {family : Family} (known : table.schema.familyOfBytes? column.family = some family) :
    (requests.foldl written table).versions key column =
      (Chain.merged (requests.filterMap (·.versionIn? key column))
        (table.versions key column)).take family.keptVersions := by
  rw [Table.versions_foldl_written requests table known,
    Chain.foldl_take_insertVersion (capped key column family known),
    Chain.insertAll_eq_merged (table.versions_newestFirst key column)
      (nodup_timestamps distinct key column)]

/-- Whether a table takes a write. -/
structure Takes (table : Table) (request : PutRequest) : Prop where
  writable : table.checkWritable = .ok ()
  known : ∃ family, table.checkFamily request.family = .ok family
  served : ∃ index, table.servingRegion request.row = .ok index

/-- What a table takes does not depend on its rows or on the load of its regions. -/
theorem Framed.takes_iff (framed : table.Framed changed) :
    changed.Takes request ↔ table.Takes request := by
  have carried {former table : Table} (framed : former.Framed table)
      (takes : former.Takes request) : table.Takes request := by
    obtain ⟨writable, ⟨family, known⟩, index, served⟩ := takes
    have open_ := checkWritable_ok_iff.mp writable
    refine ⟨checkWritable_ok_iff.mpr ?_, ⟨family, checkFamily_ok_iff.mpr ?_⟩, index, ?_⟩
    · rwa [framed.enabled, framed.schema]
    · rw [framed.schema]
      exact checkFamily_ok_iff.mp known
    · rwa [servingRegion_congr framed]
  exact ⟨carried framed.symm, carried framed⟩

/-- The content after a put depends on the content before it. -/
theorem content_written (same : changed.content = table.content) (request : PutRequest) :
    (changed.written request).content = (table.written request).content := by
  obtain ⟨schema, _, rows, _⟩ := Content.mk.inj same
  have whole (table : Table) : (table.written request).content =
      { table.content with rows := (table.written request).rows } := by
    have framed := table.framed_written request
    rw [content, framed.schema, framed.enabled, framed.seats]
    rfl
  have written : (changed.written request).rows = (table.written request).rows := by
    unfold Table.written
    rw [schema]
    cases table.schema.terms? request with
    | none => exact rows
    | some terms => simp only [Option.elim_some, putCell, rows]
  rw [whole, whole, same, written]

end Table

namespace Store

variable {store : Store} {name : String} {table : Table} {request : PutRequest}

/-- A put succeeds exactly if the store answers and the table takes it. -/
theorem put_ok_iff (found : store.tables.get? name = some table) :
    (put name request store).1 = .ok () ↔ store.available = true ∧ table.Takes request := by
  constructor
  · intro done
    have performed : put name request store = (.ok (), (put name request store).2) :=
      Prod.ext done rfl
    obtain ⟨former, family, index, _, _, found', writable, known, served, _⟩ := put_ok performed
    obtain rfl := Option.some.inj (found.symm.trans found')
    exact ⟨available_of_call_ok performed, writable, ⟨family, known⟩, index, served⟩
  · rintro ⟨up, writable, ⟨family, known⟩, index, served⟩
    rw [put, call_of_found up found, writable, known, served]
    cases request.timestamp <;> rfl

/-- A put leaves the store answering or not. -/
theorem available_put (name : String) (request : PutRequest) (store : Store) :
    (put name request store).2.available = store.available :=
  congrArg Prod.snd ((ClientCall.put name request).perform_standing store)

/-- A write at a timestamp that succeeds is one into the table that is there. -/
theorem content_put (shown : store.survey Table.content name = some table.content)
    (stamped : request.timestamp.isSome = true) (done : (put name request store).1 = .ok ()) :
    (put name request store).2.survey Table.content name =
      some (table.written request).content := by
  obtain ⟨timestamp, explicit⟩ := Option.isSome_iff_exists.mp stamped
  have performed : put name request store = (.ok (), (put name request store).2) :=
    Prod.ext done rfl
  obtain ⟨former, family, index, taken, clock, found, _, known, _, stamp, reached⟩ :=
    put_ok performed
  have same : former.content = table.content :=
    Option.some.inj ((survey_of_found found).symm.trans shown)
  have own : taken = timestamp := by
    rcases stamp with ⟨given, _⟩ | ⟨none, _⟩
    · exact Option.some.inj (given.symm.trans explicit)
    · cases none.symm.trans explicit
  have terms : former.schema.terms? request = some (family, timestamp) :=
    Schema.terms?_eq_some_iff.mpr ⟨Table.checkFamily_ok_iff.mp known, explicit⟩
  have written : former.written request = former.putCell request.row
      ⟨request.family, request.qualifier⟩ taken request.value family.versions := by
    rw [Table.written, terms, own]
    rfl
  have noted := (former.written request).framed_noteWrite index request.size
  rw [reached, survey_of_found (SortedMap.get?_insert_self _ _ _), ← written,
    ← Table.content_written same request]
  refine congrArg some ?_
  rw [Table.content, noted.schema, noted.enabled, noted.seats]
  rfl

/-- Writes into a table, one after the other. -/
def puts (name : String) (requests : List PutRequest) : List StoreEvent :=
  requests.map fun request => .client (.put name request)

/-- A put is an event that succeeds if the call does. -/
theorem put_succeeds_iff :
    StoreEvent.succeeds (.client (.put name request)) store = true ↔
      (put name request store).1 = .ok () :=
  except_isOk_iff.trans ⟨fun ⟨_, done⟩ => done, fun done => ⟨(), done⟩⟩

/-- Whether writes into one table succeed does not depend on their order: each of them has to be one
that the table takes. -/
theorem each_puts_iff {requests : List PutRequest}
    (stamped : ∀ request ∈ requests, request.timestamp.isSome = true)
    (shown : store.survey Table.content name = some table.content) :
    Each (fun event store => event.succeeds store = true) (puts name requests) store ↔
      ∀ request ∈ requests, store.available = true ∧ table.Takes request := by
  induction requests generalizing store table with
  | nil => exact iff_of_true trivial fun _ member => (List.not_mem_nil member).elim
  | cons request rest ih =>
      obtain ⟨explicit, others⟩ := List.forall_mem_cons.mp stamped
      obtain ⟨former, found, same⟩ := Option.map_eq_some_iff.mp shown
      have first : StoreEvent.succeeds (.client (.put name request)) store = true ↔
          store.available = true ∧ table.Takes request := by
        rw [← (Table.framed_of_content same).takes_iff, ← put_ok_iff found]
        exact put_succeeds_iff
      rw [List.forall_mem_cons, ← first]
      refine and_congr_right fun done => ?_
      -- The rest is written into another table, but no check looks at what has become different.
      have later := ih others (content_put shown explicit (put_succeeds_iff.mp done))
      simp only [available_put, (table.framed_written request).takes_iff] at later
      exact later

/-- Writes into one table that succeed are made one after the other. -/
theorem content_run_puts {requests : List PutRequest}
    (stamped : ∀ request ∈ requests, request.timestamp.isSome = true)
    (shown : store.survey Table.content name = some table.content)
    (succeed : Each (fun event store => event.succeeds store = true) (puts name requests) store) :
    (store.run (puts name requests)).survey Table.content name =
      some (requests.foldl Table.written table).content := by
  induction requests generalizing store table with
  | nil => exact shown
  | cons request rest ih =>
      obtain ⟨explicit, others⟩ := List.forall_mem_cons.mp stamped
      exact ih others (content_put shown explicit (put_succeeds_iff.mp succeed.1)) succeed.2

/-- Writes with timestamps of their own that succeed one after the other in a table, no two of them
to the same cell at the same timestamp, also succeed in any other order. It leads to the same table,
and if no column has stored more versions than its family keeps, each column holds, up to this
number, the newest of the versions written and of those that were there at other timestamps. -/
theorem puts_in_any_order {requests order : List PutRequest}
    (found : store.tables.get? name = some table)
    (stamped : ∀ request ∈ requests, request.timestamp.isSome = true)
    (distinct : (requests.map PutRequest.address).Nodup)
    (succeed : Each (fun event store => event.succeeds store = true) (puts name requests) store)
    (reordered : order.Perm requests) :
    Each (fun event store => event.succeeds store = true) (puts name order) store ∧
      (store.run (puts name order)).survey Table.content name =
        (store.run (puts name requests)).survey Table.content name ∧
      (table.Capped → ∀ key column family,
        table.schema.familyOfBytes? column.family = some family →
        (store.run (puts name order)).versions name key column =
          (Chain.merged (requests.filterMap (·.versionIn? key column))
            (store.versions name key column)).take family.keptVersions) := by
  have shown : store.survey Table.content name = some table.content := survey_of_found found
  have stamped' : ∀ request ∈ order, request.timestamp.isSome = true :=
    fun request member => stamped request (reordered.mem_iff.mp member)
  have taken := (each_puts_iff stamped shown).mp succeed
  have succeed' := (each_puts_iff stamped' shown).mpr
    fun request member => taken request (reordered.mem_iff.mp member)
  have reached := content_run_puts stamped' shown succeed'
  rw [Table.foldl_written_perm reordered distinct] at reached
  refine ⟨succeed', reached.trans (content_run_puts stamped shown succeed).symm, ?_⟩
  intro capped key column family known
  obtain ⟨changed, found', same⟩ := Option.map_eq_some_iff.mp reached
  rw [versions_eq found', versions_eq found, ← capped.versions_foldl_written distinct known]
  exact Table.versions_of_rows (Table.Content.mk.inj same).2.2.1 key column

/-- Of a family that keeps three versions, a cell with versions at 1 and 5 is written at 9, 5 and 7,
in this order and in the opposite one: the version at 5 is replaced, and that at 1 is dropped. -/
theorem puts_in_opposite_order :
    let request (timestamp : Nat) (value : UInt8) : PutRequest :=
      { row := [114], family := [102], qualifier := [113], timestamp := some timestamp,
        value := [value] }
    let store := (create Layout.single 7 1000).run
      (.client (.createTable (Schema.putFamily { name := "t" } "f" { versions := 3 })) ::
        puts "t" [request 1 1, request 5 1])
    let requests := [request 9 2, request 5 3, request 7 4]
    (store.run (puts "t" requests.reverse)).survey Table.content "t" =
        (store.run (puts "t" requests)).survey Table.content "t" ∧
      (store.run (puts "t" requests.reverse)).versions "t" [114] ⟨[102], [113]⟩ =
        [⟨9, [2]⟩, ⟨7, [4]⟩, ⟨5, [3]⟩] := by
  intro request store requests
  have present : (store.tables.get? "t").isSome = true := by decide +kernel
  obtain ⟨table, found⟩ := Option.isSome_iff_exists.mp present
  have capped : store.Capped := by
    refine run_capped (create_placed Layout.single 7 1000 []) (create_tidy Layout.single 7 1000 [])
      (create_capped Layout.single 7 1000 []) (keepsWithin_of_notMem fun name schema listed => ?_)
    simp [puts] at listed
  have ordinary : ¬ Named "t" := fun named => named.elim (by decide) (by decide)
  have known : ∀ table ∈ store.tables.get? "t",
      table.schema.familyOfBytes? [102] = some { versions := 3 } := by decide +kernel
  have stored : store.versions "t" [114] ⟨[102], [113]⟩ = [⟨5, [1]⟩, ⟨1, [1]⟩] := by
    decide +kernel
  obtain ⟨_, same, newest⟩ := puts_in_any_order found
    (by decide) (by decide) (by decide +kernel) (List.reverse_perm requests)
  refine ⟨same, (newest (capped "t" table ordinary found) [114] ⟨[102], [113]⟩ _
    (known table found)).trans ?_⟩
  rw [stored, ← Chain.insertAll_eq_merged (by decide) (by decide)]
  rfl

end Store

end WideColumn
