import LcsSystem.Backup.Restore

/-!
# What a restore brings back

Each run appends the rows it finds new or changed to the worksheets, which so mirror the journal. A restore takes the newest
version of every record id, also of rows that were deleted before the last run, and writes it over whatever the database
holds by then. Only empty texts are lost on the way: their cells read as `NULL`.
-/

namespace LcsSystem.Backup
open Entries Transition

section
variable {codec : Codec} {schema : Schema} {now : String}

/-! ## What a run adds -/

section
open Journal
variable {j : Journal} {table : SourceTable} {row : SourceRow} {rows : List SourceRow}

/-- A version of a row. -/
def IsOf (table : SourceTable) (row : SourceRow) (r : BackupRecord) : Prop :=
  r.tableName = table.name ∧ r.recordId = row.recordId ∧ r.data = row.data table

theorem mem_processRow {r : BackupRecord} (h : r ∈ (processRow codec now table j row).records) :
    r ∈ j.records ∨ IsOf table row r := by
  rw [processRow] at h
  cases hst : j.state? table.name row.recordId with
  | none =>
    rw [hst] at h
    exact (List.mem_append.1 h).imp_right fun hr => by rw [List.mem_singleton.1 hr]; exact ⟨rfl, rfl, rfl⟩
  | some st =>
    simp only [hst] at h
    split at h
    · exact .inl h
    · exact (List.mem_append.1 h).imp_right fun hr => by rw [List.mem_singleton.1 hr]; exact ⟨rfl, rfl, rfl⟩

theorem mem_foldl_processRow {r : BackupRecord} (h : r ∈ (rows.foldl (processRow codec now table) j).records) :
    r ∈ j.records ∨ ∃ row ∈ rows, IsOf table row r := by
  induction rows generalizing j with
  | nil => exact .inl h
  | cons first rows ih =>
    rcases ih h with h | ⟨row, hrow, hof⟩
    · exact (mem_processRow h).imp_right fun hof => ⟨first, List.mem_cons_self, hof⟩
    · exact .inr ⟨row, List.mem_cons_of_mem _ hrow, hof⟩

end

/-- The rows of each worksheet are the records of its table. -/
def Mirrors (codec : Codec) (schema : Schema) (s : Backups) : Prop :=
  ∀ table ∈ schema.tables, (s.sheets (worksheetTitle table.name)).rows =
    (s.journal.ofTable table.name).map (BackupRecord.sheetRow codec (ensureHeader [] table.columns))

/-- What a run over some rows of a table does to what is stored. -/
structure Carries (codec : Codec) (schema : Schema) (isSource : SourceTable → SourceRow → Prop) (s s' : Backups) : Prop where
  mirrors : Mirrors codec schema s → Mirrors codec schema s'
  others : ∀ tableName recordId, (∀ table row, isSource table row → table.name = tableName → row.recordId ≠ recordId) →
    (s'.journal.history tableName recordId).map BackupRecord.data =
      (s.journal.history tableName recordId).map BackupRecord.data
  records : ∀ r ∈ s'.journal.records, (∃ q ∈ s.journal.records, q.tableName = r.tableName ∧ q.recordId = r.recordId ∧
    q.data = r.data) ∨ ∃ table row, isSource table row ∧ IsOf table row r

namespace Carries
variable {isSource isSource' : SourceTable → SourceRow → Prop} {s s' s'' : Backups}

theorem refl (s : Backups) : Carries codec schema isSource s s :=
  ⟨fun h => h, fun _ _ _ => rfl, fun r hr => .inl ⟨r, hr, rfl, rfl, rfl⟩⟩

theorem trans (h : Carries codec schema isSource s s') (h' : Carries codec schema isSource s' s'') :
    Carries codec schema isSource s s'' where
  mirrors hs := h'.mirrors (h.mirrors hs)
  others T id hnone := (h'.others T id hnone).trans (h.others T id hnone)
  records r hr := by
    rcases h'.records r hr with ⟨q, hq, hname, hid, hdata⟩ | hnew
    · rcases h.records q hq with ⟨p, hp, hpname, hpid, hpdata⟩ | ⟨table, row, hsource, hof⟩
      · exact .inl ⟨p, hp, hpname.trans hname, hpid.trans hid, hpdata.trans hdata⟩
      · exact .inr ⟨table, row, hsource, hname ▸ hof.1, hid ▸ hof.2.1, hdata ▸ hof.2.2⟩
    · exact .inr hnew

theorem mono (h : Carries codec schema isSource s s') (hsub : ∀ table row, isSource table row → isSource' table row) :
    Carries codec schema isSource' s s' where
  mirrors := h.mirrors
  others T id hnone := h.others T id fun table row hsource => hnone table row (hsub table row hsource)
  records r hr := (h.records r hr).imp_right fun ⟨table, row, hsource, hof⟩ => ⟨table, row, hsub table row hsource, hof⟩

end Carries

namespace Backups
namespace Stored
open Journal
variable {s : Backups} {table : SourceTable} {rows : List SourceRow}

theorem syncTable_mirrors (h : Stored codec schema s) (htable : table ∈ schema.tables) {k : Journal}
    (hk : Exported codec table rows s.journal k) {records : List BackupRecord}
    (hrecords : k.records = s.journal.records ++ records) (hname : ∀ r ∈ records, r.tableName = table.name)
    (hs : Mirrors codec schema s) :
    Mirrors codec schema (Backups.syncTable codec { s with journal := k } table.name table.columns records) := by
  obtain ⟨hfresh, hnodup⟩ := h.not_mem_existing htable hk hrecords hname
  have hsheet : (Backups.syncTable codec { s with journal := k } table.name table.columns records).sheets =
      Function.update s.sheets (worksheetTitle table.name)
        ⟨ensureHeader [] table.columns, (s.sheets (worksheetTitle table.name)).rows ++
          records.map (BackupRecord.sheetRow codec (ensureHeader [] table.columns))⟩ := by
    simp only [Backups.syncTable, h.header_eq htable, h.existingHashes_eq htable, newRows_eq_map hfresh hnodup]
  intro other hother
  rw [hsheet]
  change _ = ((k.markSynced (records.map BackupRecord.id)).ofTable other.name).map _
  by_cases hsame : other = table
  · subst hsame
    have hrecordsOf : k.ofTable other.name = s.journal.ofTable other.name ++ records := by
      have hall : records.filter (fun r => r.tableName == other.name) = records :=
        List.filter_eq_self.2 fun r hr => by simpa using hname r hr
      rw [ofTable, hrecords, List.filter_append, hall]
      rfl
    have hmarked : (k.markSynced (records.map BackupRecord.id)).ofTable other.name =
        (k.ofTable other.name).map (mark (records.map BackupRecord.id)) := by
      change (k.records.map (mark _)).filter _ = _
      rw [List.filter_map]
      simp only [Function.comp_def, mark_tableName]
      rfl
    rw [Function.update_self, hmarked, List.map_map]
    simp only [Function.comp_def, mark_sheetRow]
    rw [hrecordsOf, List.map_append, hs other hother]
  · obtain ⟨hnames, htitles⟩ := (schema.same_or_apart htable hother).resolve_left hsame
    rw [Function.update_of_ne htitles, h.ofTable_markSynced hrecords hname _ hnames]
    exact hs other hother

theorem processTable_carries (h : Stored codec schema s) (htable : table ∈ schema.tables) (hcolumns : table.columns ≠ [])
    (now : String) (hids : (rows.map SourceRow.recordId).Nodup)
    (hhashes : (rows.map fun row => codec.digest (row.data table)).Nodup)
    (hunseen : ∀ row ∈ rows, BackupHistory.Unseen codec s.journal table row) :
    Carries codec schema (fun source row => source = table ∧ row ∈ rows) s (Backups.processTable codec now s table rows).1 := by
  have hflatten : (chunks defaultBatchSize rows.length rows).flatten = rows := flatten_chunks (by decide) le_rfl
  have hbatches : s.journal.processBatches codec now table (chunks defaultBatchSize rows.length rows) =
      (rows.foldl (processRow codec now table) s.journal, true) := by
    have hall := @processBatches_eq s.journal codec now table (chunks defaultBatchSize rows.length rows)
      h.recorded (by rwa [hflatten]) (by rwa [hflatten]) (by rwa [hflatten])
    rwa [hflatten] at hall
  have hexported : Exported codec table rows s.journal (rows.foldl (processRow codec now table) s.journal) :=
    exported_foldl h.recorded hids hhashes hunseen
  have hmem : ∀ r ∈ (rows.foldl (processRow codec now table) s.journal).records,
      r ∈ s.journal.records ∨ ∃ source row, (source = table ∧ row ∈ rows) ∧ IsOf source row r := fun r hr =>
    (mem_foldl_processRow hr).imp_right fun ⟨row, hrow, hof⟩ => ⟨table, row, ⟨rfl, hrow⟩, hof⟩
  have hothers : ∀ T id, (∀ source row, source = table ∧ row ∈ rows → source.name = T → row.recordId ≠ id) →
      (rows.foldl (processRow codec now table) s.journal).history T id = s.journal.history T id := by
    intro T id hnone
    refine hexported.others T id fun hT hid => ?_
    obtain ⟨row, hrow, hid⟩ := List.mem_map.1 hid
    exact hnone table row ⟨rfl, hrow⟩ hT.symm hid
  obtain ⟨records, hrecords, hnew⟩ := hexported.news
  have hname : ∀ r ∈ records, r.tableName = table.name := fun r hr => (hnew r hr).1
  have hdrop : (rows.foldl (processRow codec now table) s.journal).records.drop s.journal.records.length = records := by
    rw [hrecords, List.drop_left]
  simp only [Backups.processTable, if_neg hcolumns, hbatches, hdrop]
  cases records with
  | nil =>
    rw [List.append_nil] at hrecords
    refine ⟨fun hs other hother => ?_, fun T id hnone => by rw [hothers T id hnone], fun r hr => ?_⟩
    · change (s.sheets _).rows = _
      rw [hs other hother, ofTable, ofTable, hrecords]
    · exact .inl ⟨r, hrecords ▸ hr, rfl, rfl, rfl⟩
  | cons first rest =>
    refine ⟨h.syncTable_mirrors htable hexported hrecords hname, fun T id hnone => ?_, fun r hr => ?_⟩
    · change ((Journal.markSynced _ _).history T id).map _ = _
      rw [history_markSynced, List.map_map, hothers T id hnone]
      simp [Function.comp_def]
    · obtain ⟨q, hq, rfl⟩ := List.mem_map.1 (show r ∈ ((rows.foldl (processRow codec now table) s.journal).records.map
        (mark ((first :: rest).map BackupRecord.id))) from hr)
      rcases hmem q hq with hold | ⟨source, row, hsource, hof⟩
      · exact .inl ⟨q, hold, by simp, by simp, by simp⟩
      · exact .inr ⟨source, row, hsource, by simpa [IsOf] using hof⟩

theorem processTables_carries (h : Stored codec schema s) (now : String) (source : String → List SourceRow)
    {tables : List SourceTable} (hsub : ∀ table ∈ tables, table ∈ schema.tables)
    (hdistinct : (tables.map SourceTable.name).Nodup)
    (hrows : ∀ table ∈ tables, table.columns ≠ [] → ((source table.name).map SourceRow.recordId).Nodup ∧
      ((source table.name).map fun row => codec.digest (row.data table)).Nodup ∧
      ∀ row ∈ source table.name, BackupHistory.Unseen codec s.journal table row) :
    Carries codec schema (fun table row => table ∈ tables ∧ table.columns ≠ [] ∧ row ∈ source table.name) s
      (Backups.processTables codec now source s tables).1 := by
  induction tables generalizing s with
  | nil => exact Carries.refl s
  | cons table tables ih =>
    rw [List.map_cons, List.nodup_cons] at hdistinct
    have hapart : ∀ other ∈ tables, other.name ≠ table.name :=
      fun other hother hname => hdistinct.1 (hname ▸ List.mem_map_of_mem hother)
    have hmore : ∀ other row, other ∈ tables ∧ other.columns ≠ [] ∧ row ∈ source other.name →
        other ∈ table :: tables ∧ other.columns ≠ [] ∧ row ∈ source other.name :=
      fun _ _ hsource => ⟨List.mem_cons_of_mem _ hsource.1, hsource.2⟩
    by_cases hcolumns : table.columns = []
    · have hskip : Backups.processTable codec now s table (source table.name) = (s, true) := by
        rw [Backups.processTable, if_pos hcolumns]
      rw [Backups.processTables, hskip]
      exact (ih h (fun other hother => hsub other (List.mem_cons_of_mem _ hother)) hdistinct.2
        fun other hother => hrows other (List.mem_cons_of_mem _ hother)).mono hmore
    · obtain ⟨hids, hhashes, hunseen⟩ := hrows table List.mem_cons_self hcolumns
      obtain ⟨u, hu, hstored, _, hothers⟩ :=
        h.processTable (hsub table List.mem_cons_self) hcolumns now hids hhashes hunseen
      have hfirst := h.processTable_carries (hsub table List.mem_cons_self) hcolumns now hids hhashes hunseen
      rw [hu] at hfirst
      rw [Backups.processTables, hu]
      refine (hfirst.mono ?_).trans ((ih hstored (fun other hother => hsub other (List.mem_cons_of_mem _ hother))
        hdistinct.2 fun other hother hcolumns => ?_).mono hmore)
      · rintro source row ⟨rfl, hrow⟩
        exact ⟨List.mem_cons_self, hcolumns, hrow⟩
      · obtain ⟨hids, hhashes, hunseen⟩ := hrows other (List.mem_cons_of_mem _ hother) hcolumns
        exact ⟨hids, hhashes, fun row hrow => unseen_congr (hothers _ (hapart other hother)) (hunseen row hrow)⟩

end Stored
end Backups
end

/-! ## Runs over the database -/

/-- The tables of the schema as the restore sees them. -/
structure Models where
  tables : List TableModel
  distinct : (tables.map fun t => worksheetTitle t.name).Nodup

namespace Models

theorem distinct_schema (m : Models) :
    ((m.tables.map TableModel.toSourceTable).map fun table => worksheetTitle table.name).Nodup := by
  rw [List.map_map]
  exact m.distinct

def schema (m : Models) : Schema := ⟨m.tables.map TableModel.toSourceTable, m.distinct_schema⟩

def table? (m : Models) (name : String) : Option TableModel := m.tables.find? fun t => t.name == name

theorem nodup_names (m : Models) : (m.tables.map fun t => t.name).Nodup := by
  have hdistinct := m.distinct
  rw [← Function.comp_def worksheetTitle fun t : TableModel => t.name, ← List.map_map] at hdistinct
  exact hdistinct.of_map _

theorem table?_name {m : Models} {t : TableModel} (h : t ∈ m.tables) : m.table? t.name = some t := by
  cases hfound : m.table? t.name with
  | none => exact absurd (beq_self_eq_true t.name) (List.find?_eq_none.1 hfound t h)
  | some other =>
    have hname : other.name = t.name := by simpa using List.find?_some hfound
    rw [List.inj_on_of_nodup_map m.distinct (List.mem_of_find?_eq_some hfound) h (congrArg worksheetTitle hname)]

end Models

/-- A run over the rows as they are at its time. -/
structure DatabaseRun where
  now : String
  rows : String → List StoredRow

def DatabaseRun.run (m : Models) (a : DatabaseRun) : BackupRun where
  now := a.now
  source name := ((m.table? name).map fun t => (a.rows name).map t.sourceRow).getD []

/-- What the runs left, and of each row what the last run that found it saw. -/
structure BackedUp where
  history : BackupHistory := {}
  seen : String → String → Option StoredRow := fun _ _ => none

namespace BackedUp

def step (codec : Codec) (m : Models) (s : BackedUp) (a : DatabaseRun) : BackedUp where
  history := s.history.step codec m.schema (a.run m)
  seen name id := ((m.table? name).bind fun t => (a.rows name).find? fun row => recordIdOf (t.key row) == id).or
    (s.seen name id)

/-- The rows hold values of their columns, and none has gone back to an earlier content. -/
def Backable (codec : Codec) (reader : JsonReader) (m : Models) (s : BackedUp) (a : DatabaseRun) : Prop :=
  BackupHistory.NoReturn codec m.schema s.history (a.run m) ∧
    ∀ t ∈ m.tables, ∀ row ∈ a.rows t.name, t.HoldsRow codec reader row

instance (codec : Codec) (reader : JsonReader) (m : Models) (s : BackedUp) (a : DatabaseRun) :
    Decidable (Backable codec reader m s a) :=
  inferInstanceAs (Decidable (_ ∧ ∀ t ∈ m.tables, ∀ row ∈ a.rows t.name, _))

/-- What is stored after some runs: the worksheets mirror the journal, and each row has its newest version. -/
structure Mirrored (codec : Codec) (reader : JsonReader) (m : Models) (s : BackedUp) : Prop where
  stored : s.history.backups.Stored codec m.schema
  mirrors : Mirrors codec m.schema s.history.backups
  seen : ∀ t ∈ m.tables, t.columns ≠ [] →
    SeenLast codec reader t (s.history.backups.journal.ofTable t.name) (s.seen t.name)
  ofRows : ∀ t ∈ m.tables, ∀ r ∈ s.history.backups.journal.ofTable t.name,
    ∃ row, t.HoldsRow codec reader row ∧ IsOf t.toSourceTable (t.sourceRow row) r

variable {codec : Codec} {reader : JsonReader} {m : Models} {s : BackedUp} {a : DatabaseRun}

/-- **Step lemma.** -/
theorem step_mirrored (h : s.Mirrored codec reader m) (ha : Backable codec reader m s a) :
    (s.step codec m a).Mirrored codec reader m := by
  have hnames : (m.schema.tables.map SourceTable.name).Nodup := by
    have hdistinct := m.schema.distinct
    rw [← Function.comp_def worksheetTitle SourceTable.name, ← List.map_map] at hdistinct
    exact hdistinct.of_map _
  obtain ⟨u, hu, hstored, hcurrent, _⟩ :=
    h.stored.processTables a.now (a.run m).source (fun _ htable => htable) hnames ha.1
  have hcarries := h.stored.processTables_carries a.now (a.run m).source (fun _ htable => htable) hnames ha.1
  rw [hu] at hcarries
  have hstep : s.history.step codec m.schema (a.run m) = ⟨u, (a.run m).source, true⟩ := by
    rw [BackupHistory.step, Backups.execute, Backups.flushUnsynced_eq h.stored.synced]
    exact congrArg (fun result : Backups × Bool => (⟨result.1, _, result.2⟩ : BackupHistory)) hu
  have hsource : ∀ t ∈ m.tables, (a.run m).source t.name = (a.rows t.name).map t.sourceRow := by
    intro t ht
    simp only [DatabaseRun.run, Models.table?_name ht, Option.map_some, Option.getD_some]
  have hmem : ∀ t ∈ m.tables, t.toSourceTable ∈ m.schema.tables := fun t ht => List.mem_map_of_mem ht
  have hseen : ∀ t ∈ m.tables, ∀ id, (s.step codec m a).seen t.name id =
      ((a.rows t.name).find? fun row => recordIdOf (t.key row) == id).or (s.seen t.name id) := by
    intro t ht id
    simp only [step, Models.table?_name ht, Option.bind_some]
  have hfound : ∀ t ∈ m.tables, ∀ id row, ((a.rows t.name).find? fun row => recordIdOf (t.key row) == id) = some row →
      row ∈ a.rows t.name ∧ recordIdOf (t.key row) = id := by
    intro t _ id row hrow
    exact ⟨List.mem_of_find?_eq_some hrow, by simpa using List.find?_some hrow⟩
  have hhistory : (s.step codec m a).history = ⟨u, (a.run m).source, true⟩ := hstep
  refine ⟨?_, ?_, fun t ht hcolumns => ⟨fun id => ?_, fun id row hrow => ?_⟩, fun t ht r hr => ?_⟩
  · rw [hhistory]
    exact hstored
  · rw [hhistory]
    exact hcarries.mirrors h.mirrors
  · rw [hhistory, hseen t ht, ← Journal.history_eq_filter]
    cases hfind : (a.rows t.name).find? fun row => recordIdOf (t.key row) == id with
    | some row =>
      obtain ⟨hrow, hid⟩ := hfound t ht id row hfind
      obtain ⟨r, hr, hdata⟩ := hcurrent t.toSourceTable (hmem t ht) hcolumns (t.sourceRow row)
        (hsource t ht ▸ List.mem_map_of_mem hrow)
      have hlast : (u.journal.history t.name id).getLast? = some r := hid ▸ hr
      rw [hlast, Option.some_or, Option.map_some, Option.map_some, hdata]
    | none =>
      have hsame := hcarries.others t.name id fun table row hrow hname hid => by
        have htable : table = t.toSourceTable :=
          List.inj_on_of_nodup_map m.schema.distinct hrow.1 (hmem t ht) (congrArg worksheetTitle hname)
        rw [htable, hsource t ht] at hrow
        obtain ⟨other, hother, rfl⟩ := List.mem_map.1 hrow.2.2
        exact List.find?_eq_none.1 hfind other hother (beq_iff_eq.2 hid)
      rw [Option.none_or, ← (h.seen t ht hcolumns).newest id, ← Journal.history_eq_filter, ← List.getLast?_map, hsame,
        List.getLast?_map]
  · rw [hseen t ht] at hrow
    cases hfind : (a.rows t.name).find? fun row => recordIdOf (t.key row) == id with
    | some other =>
      rw [hfind, Option.some_or, Option.some.injEq] at hrow
      obtain ⟨hother, hid⟩ := hfound t ht id other hfind
      exact hrow ▸ ⟨ha.2 t ht other hother, hid⟩
    | none =>
      rw [hfind, Option.none_or] at hrow
      exact (h.seen t ht hcolumns).held id row hrow
  · rw [hhistory] at hr
    obtain ⟨hr, hname⟩ := Journal.mem_ofTable.1 hr
    rcases hcarries.records r hr with ⟨q, hq, hqname, hqid, hqdata⟩ | ⟨table, row, hrow, hof⟩
    · obtain ⟨row, hheld, hof⟩ := h.ofRows t ht q (Journal.mem_ofTable.2 ⟨hq, hqname.trans hname⟩)
      exact ⟨row, hheld, hqname ▸ hof.1, hqid ▸ hof.2.1, hqdata ▸ hof.2.2⟩
    · have htable : table = t.toSourceTable :=
        List.inj_on_of_nodup_map m.schema.distinct hrow.1 (hmem t ht) (congrArg worksheetTitle (hof.1.symm.trans hname))
      rw [htable, hsource t ht] at hrow
      obtain ⟨other, hother, rfl⟩ := List.mem_map.1 hrow.2.2
      exact ⟨other, ha.2 t ht other hother, htable ▸ hof⟩

theorem mirrored_initial (codec : Codec) (reader : JsonReader) (m : Models) : ({} : BackedUp).Mirrored codec reader m := by
  refine ⟨Backups.stored_initial codec m.schema, fun _ _ => rfl, fun t ht hcolumns => ⟨fun id => rfl, ?_⟩, ?_⟩
  · intro id row hrow
    cases hrow
  · intro t ht r hr
    cases hr

theorem run_mirrored {runs : List DatabaseRun} (hmeets : Meets (step codec m) (Backable codec reader m) {} runs) :
    (run (step codec m) {} runs).Mirrored codec reader m :=
  run_invariant_of_meets (fun s : BackedUp => s.Mirrored codec reader m) (fun _ _ h ha => step_mirrored h ha)
    (mirrored_initial codec reader m) hmeets

end BackedUp

/-! ## The restore -/

section
variable {codec : Codec} {reader : JsonReader} {display : Display} {m : Models} {selected : List String}

def Chosen (selected : List String) (t : TableModel) : Prop := selected = [] ∨ t.name ∈ selected

theorem restoreTables_fst (loads : String → Option Json) (display : Display) (selected : List String)
    (sheets : String → Worksheet) {tables : List TableModel}
    (hnames : (tables.map fun t => t.name).Nodup) (s : (String → List StoredRow) × List RestoredTable) :
    (∀ t ∈ tables, Chosen selected t → (restoreTables loads display sheets selected s tables).1 t.name =
      (restoreTable loads display t (sheets (worksheetTitle t.name)) (s.1 t.name)).1) ∧
    ∀ name, (∀ t ∈ tables, Chosen selected t → t.name ≠ name) →
      (restoreTables loads display sheets selected s tables).1 name = s.1 name := by
  induction tables generalizing s with
  | nil => exact ⟨fun t ht => (List.not_mem_nil ht).elim, fun _ _ => rfl⟩
  | cons t tables ih =>
    rw [List.map_cons, List.nodup_cons] at hnames
    rw [restoreTables]
    have hapart : ∀ other ∈ tables, other.name ≠ t.name :=
      fun other hother hname => hnames.1 (hname ▸ List.mem_map_of_mem (f := fun t => t.name) hother)
    by_cases hskip : selected ≠ [] ∧ t.name ∉ selected
    · rw [if_pos hskip]
      obtain ⟨hback, hrest⟩ := ih hnames.2 s
      refine ⟨fun other hother hchosen => ?_, fun name hnone => hrest name fun other hother =>
        hnone other (List.mem_cons_of_mem _ hother)⟩
      rcases List.mem_cons.1 hother with rfl | hother
      · exact (hchosen.elim hskip.1 hskip.2).elim
      · exact hback other hother hchosen
    · rw [if_neg hskip]
      have hchosen : Chosen selected t := by
        rw [not_and_or, not_not, not_not] at hskip
        exact hskip
      obtain ⟨hback, hrest⟩ := ih hnames.2 (Function.update s.1 t.name
        (restoreTable loads display t (sheets (worksheetTitle t.name)) (s.1 t.name)).1,
        s.2 ++ (restoreTable loads display t (sheets (worksheetTitle t.name)) (s.1 t.name)).2.toList)
      refine ⟨fun other hother hother' => ?_, fun name hnone => ?_⟩
      · rcases List.mem_cons.1 hother with rfl | hother
        · rw [hrest _ fun other hother _ => hapart other hother]
          simp only [Function.update_self]
        · rw [hback other hother hother']
          simp only [Function.update_of_ne (hapart other hother)]
      · rw [hrest name fun other hother => hnone other (List.mem_cons_of_mem _ hother)]
        simp only [Function.update_of_ne (Ne.symm (hnone t List.mem_cons_self hchosen))]

theorem lookup_meta (t : TableModel) (row : StoredRow) {column : String} (h : column ∈ metaColumns) :
    ((t.sourceRow row).data t.toSourceTable).lookup column = none := by
  rw [SourceRow.data, lookup_map_self, if_neg fun hcolumn => t.plain column hcolumn h]

theorem ascending_ofTable {j : Journal} (h : j.Recorded codec) (tableName : String) : Ascending (j.ofTable tableName) := by
  intro id
  rw [← Journal.history_eq_filter, h.numbered]
  exact List.pairwise_le_range'

/-- The table of one model. -/
theorem restored_of_mirrored (display : Display) {s : BackedUp} (hs : s.Mirrored codec reader m)
    (hversions : ∀ r ∈ s.history.backups.journal.records, r.backupVersion < 10 ^ 15) {t : TableModel} (ht : t ∈ m.tables)
    (hcolumns : t.columns ≠ []) (rows : List StoredRow) :
    Restored t (s.seen t.name) rows
      (restoreTable reader.loads display t (s.history.backups.sheets (worksheetTitle t.name)) rows).1 := by
  have hmem : t.toSourceTable ∈ m.schema.tables := List.mem_map_of_mem ht
  have hseen := hs.seen t ht hcolumns
  have hmirror := hs.mirrors t.toSourceTable hmem
  rcases hs.stored.headers t.toSourceTable hmem with hempty | hheader
  · rw [hempty, eq_comm, List.map_eq_nil_iff] at hmirror
    have hnone : ∀ id, s.seen t.name id = none := by
      intro id
      have hlast := hseen.newest id
      rw [hmirror, List.filter_nil, List.getLast?_nil, Option.map_none, eq_comm, Option.map_eq_none_iff] at hlast
      exact hlast
    rw [hempty]
    refine ⟨fun id row hrow => ?_, fun _ _ => rfl⟩
    rw [hnone id] at hrow
    cases hrow
  · rw [← hheader] at hmirror
    refine restored_of_seen hheader hmirror (fun r hr => ?_) (ascending_ofTable hs.stored.recorded _) hseen rows
    obtain ⟨row, hheld, hof⟩ := hs.ofRows t ht r hr
    refine ⟨⟨?_, ?_⟩, ?_, hversions r (Journal.mem_ofTable.1 hr).1⟩
    · rw [hof.2.2]
      exact lookup_meta t row (by decide)
    · rw [hof.2.2]
      exact lookup_meta t row (by decide)
    · rw [hof.2.1]
      exact recordIdOf_ne hheld

theorem broughtBack_eq_self {v : Value} : v.broughtBack = v ↔ v ≠ .text "" := by
  cases v with
  | text s =>
    by_cases hs : s = ""
    · simp [Value.broughtBack, hs]
    · simp [Value.broughtBack, hs]
  | _ => simp [Value.broughtBack]

/-- What a run found last is what it has seen. -/
theorem BackedUp.seen_of_mem {s : BackedUp} {a : DatabaseRun} (ha : BackedUp.Backable codec reader m s a) {t : TableModel}
    (ht : t ∈ m.tables) (hcolumns : t.columns ≠ []) {row : StoredRow} (hrow : row ∈ a.rows t.name) :
    (s.step codec m a).seen t.name (recordIdOf (t.key row)) = some row ∧ t.rowAt (t.key row) (a.rows t.name) = some row := by
  have hids := (ha.1 t.toSourceTable (List.mem_map_of_mem ht) hcolumns).1
  have hsource : (a.run m).source t.name = (a.rows t.name).map t.sourceRow := by
    simp only [DatabaseRun.run, Models.table?_name ht, Option.map_some, Option.getD_some]
  rw [hsource, List.map_map] at hids
  have hunique : ∀ other ∈ a.rows t.name, recordIdOf (t.key other) = recordIdOf (t.key row) → other = row :=
    fun other hother hid => List.inj_on_of_nodup_map hids hother hrow hid
  have hfind : ((a.rows t.name).find? fun other => recordIdOf (t.key other) == recordIdOf (t.key row)) = some row := by
    obtain ⟨other, hother⟩ : ∃ other, ((a.rows t.name).find? fun other =>
        recordIdOf (t.key other) == recordIdOf (t.key row)) = some other :=
      Option.isSome_iff_exists.1 (List.find?_isSome.2 ⟨row, hrow, beq_self_eq_true _⟩)
    rw [hother, hunique other (List.mem_of_find?_eq_some hother) (by simpa using List.find?_some hother)]
  constructor
  · simp only [step, Models.table?_name ht, Option.bind_some, hfind, Option.some_or]
  · obtain ⟨other, hother⟩ : ∃ other, t.rowAt (t.key row) (a.rows t.name) = some other :=
      Option.isSome_iff_exists.1 (List.find?_isSome.2 ⟨row, hrow, decide_eq_true rfl⟩)
    rw [hother, hunique other (List.mem_of_find?_eq_some hother) (congrArg recordIdOf (key_of_rowAt hother))]

end

/-! ## A direction that is lost -/

/-- A worksheet that answers with what `str` makes of its cells. -/
def plainCell : Json → String
  | .str s => s
  | .bool b => if b then "TRUE" else "FALSE"
  | .num q => toString q.num
  | _ => ""

theorem plainCell_bool (b : Bool) : lower (strip (plainCell (.bool b))) = if b then "true" else "false" := by
  cases b <;> decide

def plainDisplay : Display where
  shows := plainCell
  text _ := rfl
  bool := plainCell_bool
  whole z _ := by simp [plainCell]

def noJson : JsonReader := ⟨fun _ => none, rfl⟩

theorem plain_restored : ∀ column ∈ ["id", "code", "name"], column ∉ metaColumns := by decide

def directionModel : TableModel where
  name := "trade_directions"
  columns := ["id", "code", "name"]
  plain := plain_restored
  primaryKey := ["id"]
  keyed := List.cons_ne_nil _ _
  type column := if column = "id" then .integer else .text
  default _ := .null

theorem distinct_models : ([directionModel].map fun t => worksheetTitle t.name).Nodup := by decide

def directionModels : Models := ⟨[directionModel], distinct_models⟩

/-- Directions as a run finds them, each under its id. -/
def runDirections (directions : List (ℤ × String × String)) : DatabaseRun where
  now := "2026-01-01T00:00:00+00:00"
  rows _ := directions.map fun direction column =>
    if column = "id" then .int direction.1 else .text (if column = "code" then direction.2.1 else direction.2.2)

end LcsSystem.Backup
