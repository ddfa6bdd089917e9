import LcsSystem.Backup.Export

/-!
# Which contents of a row are kept

A row is compared with its newest version, but the unique constraint compares a new version with all earlier ones, and the
worksheet with all records of the table. So a row that goes back to an earlier content ends the run at its batch, and every
later run ends there as long as the row keeps that content. Where no row goes back and the rows of a table have hashes of
their own, every version is kept.
-/

namespace LcsSystem.Backup
open Transition

/-! ## The batches -/

theorem flatten_chunks {α : Type*} {size : ℕ} (hsize : 0 < size) :
    ∀ {fuel : ℕ} {rows : List α}, rows.length ≤ fuel → (chunks size fuel rows).flatten = rows
  | 0, rows, h => by
    rw [List.length_eq_zero_iff.1 (Nat.le_zero.1 h)]
    rfl
  | fuel + 1, [], _ => by simp [chunks]
  | fuel + 1, row :: rows, h => by
    obtain ⟨n, rfl⟩ : ∃ n, size = n + 1 := ⟨size - 1, by omega⟩
    have hrest : (rows.drop n).length ≤ fuel := by
      rw [List.length_drop]
      simp only [List.length_cons] at h
      omega
    simp only [chunks, List.take_succ_cons, List.drop_succ_cons, List.flatten_cons, flatten_chunks hsize hrest,
      List.cons_append, List.take_append_drop]

/-! ## The states -/

theorem beq_keys_eq_false {a b c d : String} (h : ¬(c = a ∧ d = b)) : (a == c && b == d) = false := by
  rw [Bool.and_eq_false_iff]
  by_contra hall
  simp only [not_or, Bool.not_eq_false, beq_iff_eq] at hall
  exact h ⟨hall.1.symm, hall.2.symm⟩

namespace Journal
variable {j : Journal} {tableName recordId : String}

theorem state?_append (states : List BackupState) (st : BackupState) (records : List BackupRecord)
    (hnone : (⟨records, states⟩ : Journal).state? st.tableName st.recordId = none) (records' : List BackupRecord) :
    (⟨records', states ++ [st]⟩ : Journal).state? tableName recordId =
      if tableName = st.tableName ∧ recordId = st.recordId then some st
      else (⟨records, states⟩ : Journal).state? tableName recordId := by
  simp only [state?, List.find?_append] at hnone ⊢
  by_cases hkey : tableName = st.tableName ∧ recordId = st.recordId
  · obtain ⟨rfl, rfl⟩ := hkey
    rw [hnone]
    simp
  · rw [if_neg hkey]
    simp [beq_keys_eq_false hkey]

/-- An update of the state of one row, found before. -/
theorem state?_update {states : List BackupState} {st : BackupState} {records : List BackupRecord} {T id : String}
    (hst : (⟨records, states⟩ : Journal).state? T id = some st) (f : BackupState → BackupState)
    (hf : ∀ st, (f st).tableName = st.tableName ∧ (f st).recordId = st.recordId) (records' : List BackupRecord) :
    (⟨records', states.map fun st => if st.tableName = T ∧ st.recordId = id then f st else st⟩ : Journal).state?
        tableName recordId =
      if tableName = T ∧ recordId = id then some (f st) else (⟨records, states⟩ : Journal).state? tableName recordId := by
  have hsame : ∀ st : BackupState, ((if st.tableName = T ∧ st.recordId = id then f st else st).tableName == tableName &&
      (if st.tableName = T ∧ st.recordId = id then f st else st).recordId == recordId) =
      (st.tableName == tableName && st.recordId == recordId) := by
    intro st
    split
    · rw [(hf st).1, (hf st).2]
    · rfl
  simp only [state?, List.find?_map, Function.comp_def, hsame] at hst ⊢
  by_cases hkey : tableName = T ∧ recordId = id
  · obtain ⟨rfl, rfl⟩ := hkey
    have hfound := List.find?_some hst
    simp only [Bool.and_eq_true, beq_iff_eq] at hfound
    rw [hst, Option.map_some, if_pos hfound, if_pos ⟨rfl, rfl⟩]
  · rw [if_neg hkey]
    cases hfind : states.find? fun st => st.tableName == tableName && st.recordId == recordId with
    | none => rfl
    | some other =>
      have hfound := List.find?_some hfind
      simp only [Bool.and_eq_true, beq_iff_eq] at hfound
      rw [Option.map_some, if_neg]
      rw [hfound.1, hfound.2]
      exact hkey

/-! ## The journal -/

theorem history_append (records : List BackupRecord) (states states' : List BackupState) (r : BackupRecord) :
    (⟨records ++ [r], states⟩ : Journal).history tableName recordId =
      (⟨records, states'⟩ : Journal).history tableName recordId ++
        if tableName = r.tableName ∧ recordId = r.recordId then [r] else [] := by
  simp only [history, List.filter_append, List.filter_singleton]
  congr 1
  by_cases hkey : tableName = r.tableName ∧ recordId = r.recordId
  · simp [hkey]
  · rw [if_neg hkey, beq_keys_eq_false hkey]
    rfl

theorem mem_history {r : BackupRecord} :
    r ∈ j.history tableName recordId ↔ r ∈ j.records ∧ r.tableName = tableName ∧ r.recordId = recordId := by
  simp [history]

/-- The versions of every row and what the states know of them. -/
structure Recorded (codec : Codec) (j : Journal) : Prop where
  hashes : (j.records.map fun r => (r.tableName, r.rowHash)).Nodup
  digested : ∀ r ∈ j.records, r.rowHash = codec.digest r.data
  plain : ∀ r ∈ j.records, r.data.lookup "_row_hash" = none
  numbered : ∀ tableName recordId, (j.history tableName recordId).map BackupRecord.backupVersion =
    List.range' 1 (j.history tableName recordId).length
  differ : ∀ tableName recordId, (j.history tableName recordId).IsChain fun a b => a.data ≠ b.data
  states : ∀ tableName recordId, (j.state? tableName recordId).map (fun st => (st.rowHash, st.backupVersion)) =
    (j.history tableName recordId).getLast?.map fun r => (r.rowHash, r.backupVersion)

/-- The newest version has the content of the row. -/
def Current (j : Journal) (table : SourceTable) (row : SourceRow) : Prop :=
  ∃ r, (j.history table.name row.recordId).getLast? = some r ∧ r.data = row.data table

namespace Recorded
variable {codec : Codec}

/-- One more version. -/
theorem append (h : Recorded codec j) {r : BackupRecord} {states : List BackupState}
    (hdigest : r.rowHash = codec.digest r.data) (hplain : r.data.lookup "_row_hash" = none)
    (hversion : r.backupVersion = (j.history r.tableName r.recordId).length + 1)
    (hnew : ∀ q ∈ j.records, q.tableName = r.tableName → q.rowHash ≠ r.rowHash)
    (hstates : ∀ tableName recordId,
      ((⟨j.records ++ [r], states⟩ : Journal).state? tableName recordId).map (fun st => (st.rowHash, st.backupVersion)) =
        if tableName = r.tableName ∧ recordId = r.recordId then some (r.rowHash, r.backupVersion)
        else (j.state? tableName recordId).map fun st => (st.rowHash, st.backupVersion)) :
    Recorded codec ⟨j.records ++ [r], states⟩ where
  hashes := by
    rw [List.map_append]
    refine List.nodup_append.2 ⟨h.hashes, by simp, ?_⟩
    intro a ha b hb
    obtain ⟨q, hq, rfl⟩ := List.mem_map.1 ha
    rw [List.map_singleton, List.mem_singleton] at hb
    rw [hb]
    intro hsame
    exact hnew q hq (Prod.mk.inj hsame).1 (Prod.mk.inj hsame).2
  digested := by
    intro q hq
    rcases List.mem_append.1 hq with hq | hq
    · exact h.digested q hq
    · rw [List.mem_singleton.1 hq]
      exact hdigest
  plain := by
    intro q hq
    rcases List.mem_append.1 hq with hq | hq
    · exact h.plain q hq
    · rw [List.mem_singleton.1 hq]
      exact hplain
  numbered := by
    intro tableName recordId
    rw [history_append _ _ j.states]
    by_cases hkey : tableName = r.tableName ∧ recordId = r.recordId
    · obtain ⟨rfl, rfl⟩ := hkey
      rw [if_pos ⟨rfl, rfl⟩, List.map_append, List.length_append, List.length_singleton, List.map_singleton, hversion,
        List.range'_1_concat, Nat.add_comm 1]
      exact congrArg (· ++ _) (h.numbered r.tableName r.recordId)
    · rw [if_neg hkey, List.append_nil]
      exact h.numbered tableName recordId
  differ := by
    intro tableName recordId
    rw [history_append _ _ j.states]
    by_cases hkey : tableName = r.tableName ∧ recordId = r.recordId
    · obtain ⟨rfl, rfl⟩ := hkey
      rw [if_pos ⟨rfl, rfl⟩]
      refine List.isChain_append.2 ⟨h.differ _ _, List.isChain_singleton _, ?_⟩
      intro last hlast first hfirst hdata
      obtain rfl : r = first := by simpa using hfirst
      have hmem := mem_history.1 (List.mem_of_getLast? hlast)
      exact hnew last hmem.1 hmem.2.1 (by rw [h.digested last hmem.1, hdigest, hdata])
    · rw [if_neg hkey, List.append_nil]
      exact h.differ tableName recordId
  states := by
    intro tableName recordId
    rw [hstates, history_append _ _ j.states]
    by_cases hkey : tableName = r.tableName ∧ recordId = r.recordId
    · rw [if_pos hkey, if_pos hkey, List.getLast?_append, List.getLast?_singleton]
      rfl
    · rw [if_neg hkey, if_neg hkey, List.append_nil]
      exact h.states tableName recordId

/-- What the state says is what the newest version says. -/
theorem state?_eq_none (h : Recorded codec j) (hnone : j.state? tableName recordId = none) :
    j.history tableName recordId = [] := by
  have hlast := h.states tableName recordId
  rw [hnone, Option.map_none, eq_comm, Option.map_eq_none_iff, List.getLast?_eq_none_iff] at hlast
  exact hlast

theorem of_state? (h : Recorded codec j) {st : BackupState} (hst : j.state? tableName recordId = some st) :
    ∃ r, (j.history tableName recordId).getLast? = some r ∧ r.rowHash = st.rowHash ∧ r.backupVersion = st.backupVersion := by
  have hlast := h.states tableName recordId
  rw [hst, Option.map_some, eq_comm, Option.map_eq_some_iff] at hlast
  obtain ⟨r, hr, hboth⟩ := hlast
  exact ⟨r, hr, (Prod.mk.inj hboth).1, (Prod.mk.inj hboth).2⟩

/-- The number of the newest version is how many there are. -/
theorem version_eq_length (h : Recorded codec j) {r : BackupRecord} (hr : (j.history tableName recordId).getLast? = some r) :
    r.backupVersion = (j.history tableName recordId).length := by
  have hlast : ((j.history tableName recordId).map BackupRecord.backupVersion).getLast? = some r.backupVersion := by
    rw [List.getLast?_map, hr, Option.map_some]
  have hpos : 0 < (j.history tableName recordId).length := List.length_pos_of_mem (List.mem_of_getLast? hr)
  rw [h.numbered, List.getLast?_range'] at hlast
  rw [if_neg hpos.ne', Option.some.injEq] at hlast
  omega

end Recorded

/-! ## One row -/

section
variable {codec : Codec} {now : String} {table : SourceTable} {row : SourceRow}

theorem lookup_rowHash (table : SourceTable) (row : SourceRow) : (row.data table).lookup "_row_hash" = none := by
  rw [List.lookup_eq_none_iff]
  intro p hp
  obtain ⟨column, hcolumn, rfl⟩ := List.mem_map.1 hp
  have hplain : column ∉ metaColumns := table.plain column hcolumn
  simp only [ne_eq, bne_iff_ne]
  rintro rfl
  exact hplain (by decide)

/-- A row is left alone or gets one more version. -/
structure Extended (codec : Codec) (table : SourceTable) (row : SourceRow) (j k : Journal) : Prop where
  recorded : Recorded codec k
  current : k.Current table row
  news : k.records = j.records ∨ ∃ r, k.records = j.records ++ [r] ∧ r.tableName = table.name ∧ r.recordId = row.recordId ∧
    r.rowHash = codec.digest (row.data table) ∧ r.synced = false

theorem processRow_extended (h : Recorded codec j) (hunseen : BackupHistory.Unseen codec j table row) :
    Extended codec table row j (processRow codec now table j row) := by
  have hnew : (∀ r, (j.history table.name row.recordId).getLast? = some r → r.rowHash ≠ codec.digest (row.data table)) →
      ∀ q ∈ j.records, q.tableName = table.name → q.rowHash ≠ codec.digest (row.data table) :=
    fun hlast q hq hname hhash => hlast q (hunseen q hq hname hhash).2 hhash
  cases hst : j.state? table.name row.recordId with
  | none =>
    have hempty := h.state?_eq_none hst
    simp only [processRow, hst]
    refine ⟨h.append rfl (lookup_rowHash table row) ?_ (hnew ?_) ?_,
      ⟨j.newRecord codec now table row 1 "insert", ?_, rfl⟩, .inr ⟨_, rfl, rfl, rfl, rfl, rfl⟩⟩
    · exact (congrArg (fun l => List.length l + 1) hempty).symm
    · intro r hr
      rw [hempty] at hr
      cases hr
    · intro tableName recordId
      rw [state?_append j.states _ j.records hst, apply_ite (Option.map _)]
      rfl
    · rw [history_append _ _ j.states, if_pos ⟨rfl, rfl⟩, List.getLast?_concat]
  | some st =>
    obtain ⟨r, hr, hhash, hversion⟩ := h.of_state? hst
    simp only [processRow, hst]
    split
    · next hsame =>
      have hmem := mem_history.1 (List.mem_of_getLast? hr)
      exact ⟨h, ⟨r, hr, (hunseen r hmem.1 hmem.2.1 (hhash.trans hsame)).1⟩, .inl rfl⟩
    · next hdiffers =>
      refine ⟨h.append rfl (lookup_rowHash table row) ?_ (hnew ?_) ?_,
        ⟨j.newRecord codec now table row (st.backupVersion + 1) "update", ?_, rfl⟩, .inr ⟨_, rfl, rfl, rfl, rfl, rfl⟩⟩
      · exact congrArg (· + 1) (hversion.symm.trans (h.version_eq_length hr))
      · intro q hq
        rw [Option.some.inj (hq.symm.trans hr), hhash]
        exact hdiffers
      · intro tableName recordId
        rw [state?_update hst
          (fun q => { q with rowHash := codec.digest (row.data table), backupVersion := st.backupVersion + 1, lastBackupAt := now })
          (fun _ => ⟨rfl, rfl⟩), apply_ite (Option.map _)]
        rfl
      · rw [history_append _ _ j.states, if_pos ⟨rfl, rfl⟩, List.getLast?_concat]

namespace Extended
variable {k : Journal}

theorem history_of_ne (h : Extended codec table row j k) {T id : String} (hother : ¬(T = table.name ∧ id = row.recordId)) :
    k.history T id = j.history T id := by
  rcases h.news with hsame | ⟨r, hrecords, hname, hid, _⟩
  · rw [history, history, hsame]
  · have happend := @history_append T id j.records k.states j.states r
    rw [← hrecords, if_neg (by rwa [hname, hid]), List.append_nil] at happend
    exact happend

/-- The other rows of the table stay unseen. -/
theorem unseen (h : Extended codec table row j k) {other : SourceRow} (hid : other.recordId ≠ row.recordId)
    (hhash : codec.digest (row.data table) ≠ codec.digest (other.data table))
    (hunseen : BackupHistory.Unseen codec j table other) : BackupHistory.Unseen codec k table other := by
  intro q hq hname hqhash
  rw [h.history_of_ne fun hsame => hid hsame.2]
  rcases h.news with hsame | ⟨r, hrecords, _, _, hrhash, _⟩
  · exact hunseen q (hsame ▸ hq) hname hqhash
  · rw [hrecords] at hq
    rcases List.mem_append.1 hq with hq | hq
    · exact hunseen q hq hname hqhash
    · rw [List.mem_singleton.1 hq] at hqhash
      exact absurd (hrhash.symm.trans hqhash) hhash

end Extended

/-! ## The rows of a table -/

/-- What the batches of one table leave. -/
structure Exported (codec : Codec) (table : SourceTable) (rows : List SourceRow) (j k : Journal) : Prop where
  recorded : Recorded codec k
  current : ∀ row ∈ rows, k.Current table row
  news : ∃ records, k.records = j.records ++ records ∧ ∀ r ∈ records, r.tableName = table.name ∧ r.synced = false
  others : ∀ T id, (T = table.name → id ∉ rows.map SourceRow.recordId) → k.history T id = j.history T id
  unseen : ∀ other : SourceRow, other.recordId ∉ rows.map SourceRow.recordId →
    codec.digest (other.data table) ∉ rows.map (fun row => codec.digest (row.data table)) →
    BackupHistory.Unseen codec j table other → BackupHistory.Unseen codec k table other

theorem exported_foldl {rows : List SourceRow} (h : Recorded codec j) (hids : (rows.map SourceRow.recordId).Nodup)
    (hhashes : (rows.map fun row => codec.digest (row.data table)).Nodup)
    (hunseen : ∀ row ∈ rows, BackupHistory.Unseen codec j table row) :
    Exported codec table rows j (rows.foldl (processRow codec now table) j) := by
  induction rows generalizing j with
  | nil => exact ⟨h, by simp, ⟨[], by simp⟩, fun _ _ _ => rfl, fun _ _ _ hother => hother⟩
  | cons row rows ih =>
    rw [List.map_cons, List.nodup_cons] at hids hhashes
    have hrow : Extended codec table row j (processRow codec now table j row) :=
      processRow_extended h (hunseen row List.mem_cons_self)
    have hrest : Exported codec table rows (processRow codec now table j row)
        ((row :: rows).foldl (processRow codec now table) j) := by
      refine ih hrow.recorded hids.2 hhashes.2 fun other hother => ?_
      refine hrow.unseen ?_ ?_ (hunseen other (List.mem_cons_of_mem _ hother))
      · exact fun hid => hids.1 (hid ▸ List.mem_map_of_mem hother)
      · intro hhash
        rw [hhash] at hhashes
        exact hhashes.1 (List.mem_map_of_mem (f := fun row => codec.digest (row.data table)) hother)
    refine ⟨hrest.recorded, ?_, ?_, ?_, ?_⟩
    · intro other hother
      rcases List.mem_cons.1 hother with rfl | hother
      · obtain ⟨r, hr, hdata⟩ := hrow.current
        exact ⟨r, by rw [hrest.others _ _ fun _ => hids.1, hr], hdata⟩
      · exact hrest.current other hother
    · obtain ⟨records, hrecords, hall⟩ := hrest.news
      rcases hrow.news with hsame | ⟨r, hone, hname, _, _, hsynced⟩
      · exact ⟨records, by rw [hrecords, hsame], hall⟩
      · refine ⟨r :: records, by rw [hrecords, hone]; simp, fun q hq => ?_⟩
        rcases List.mem_cons.1 hq with rfl | hq
        · exact ⟨hname, hsynced⟩
        · exact hall q hq
    · intro T id hother
      rw [hrest.others T id fun hT hid => hother hT (List.mem_cons_of_mem _ hid), hrow.history_of_ne]
      exact fun hsame => hother hsame.1 (hsame.2 ▸ List.mem_cons_self)
    · intro other hid hhash hother
      rw [List.map_cons, List.mem_cons, not_or] at hid hhash
      exact hrest.unseen other hid.2 hhash.2 (hrow.unseen hid.1 (Ne.symm hhash.1) hother)

theorem nodup_keys (h : Recorded codec j) : (j.records.map BackupRecord.key).Nodup := by
  have hmap : (j.records.map fun r => (r.tableName, r.rowHash)) =
      (j.records.map BackupRecord.key).map fun k => (k.1, k.2.2) := by simp [BackupRecord.key]
  have := h.hashes
  rw [hmap] at this
  exact this.of_map _

/-- Every batch commits. -/
theorem processBatches_eq {batches : List (List SourceRow)} (h : Recorded codec j)
    (hids : (batches.flatten.map SourceRow.recordId).Nodup)
    (hhashes : (batches.flatten.map fun row => codec.digest (row.data table)).Nodup)
    (hunseen : ∀ row ∈ batches.flatten, BackupHistory.Unseen codec j table row) :
    processBatches codec now table j batches = (batches.flatten.foldl (processRow codec now table) j, true) := by
  induction batches generalizing j with
  | nil => rfl
  | cons batch batches ih =>
    simp only [List.flatten_cons, List.map_append, List.nodup_append] at hids hhashes
    have hbatch : Exported codec table batch j (batch.foldl (processRow codec now table) j) :=
      exported_foldl h hids.1 hhashes.1 fun row hrow => hunseen row (List.mem_append_left _ hrow)
    have hrest : ∀ row ∈ batches.flatten,
        BackupHistory.Unseen codec (batch.foldl (processRow codec now table) j) table row := by
      intro row hrow
      refine hbatch.unseen row (fun hid => ?_) (fun hhash => ?_) (hunseen row (List.mem_append_right _ hrow))
      · exact hids.2.2 _ hid _ (List.mem_map_of_mem hrow) rfl
      · exact hhashes.2.2 _ hhash _ (List.mem_map_of_mem (f := fun row => codec.digest (row.data table)) hrow) rfl
    rw [processBatches, processBatch, if_pos (nodup_keys hbatch.recorded)]
    simp only
    rw [ih hbatch.recorded hids.2.1 hhashes.2.1 hrest, List.flatten_cons, List.foldl_append]

end

/-! ## The marks -/

/-- One record under `UPDATE … SET synced = true WHERE id IN ids`. -/
def mark (ids : List ℕ) (r : BackupRecord) : BackupRecord := if r.id ∈ ids then { r with synced := true } else r

theorem mark_of_synced {ids : List ℕ} {r : BackupRecord} (h : r.synced = true) : mark ids r = r := by
  rw [mark, ← h]
  split <;> rfl

section
variable {codec : Codec} (ids : List ℕ) (r : BackupRecord)

@[simp] theorem mark_tableName : (mark ids r).tableName = r.tableName := by unfold mark; split <;> rfl
@[simp] theorem mark_recordId : (mark ids r).recordId = r.recordId := by unfold mark; split <;> rfl
@[simp] theorem mark_rowHash : (mark ids r).rowHash = r.rowHash := by unfold mark; split <;> rfl
@[simp] theorem mark_data : (mark ids r).data = r.data := by unfold mark; split <;> rfl
@[simp] theorem mark_backupVersion : (mark ids r).backupVersion = r.backupVersion := by unfold mark; split <;> rfl

theorem mark_sheetRow (header : List String) : (mark ids r).sheetRow codec header = r.sheetRow codec header := by
  unfold mark
  split <;> rfl

theorem history_markSynced : (j.markSynced ids).history tableName recordId = (j.history tableName recordId).map (mark ids) := by
  simp only [history, markSynced, List.filter_map]
  change ((j.records.filter _).map (mark ids)) = _
  simp [Function.comp_def, ← mark.eq_def]

theorem Recorded.markSynced (h : Recorded codec j) : Recorded codec (j.markSynced ids) where
  hashes := by
    have hsame : ((j.markSynced ids).records.map fun r => (r.tableName, r.rowHash)) =
        j.records.map fun r => (r.tableName, r.rowHash) := by
      change ((j.records.map (mark ids)).map _) = _
      simp [Function.comp_def]
    rw [hsame]
    exact h.hashes
  digested := by
    intro q hq
    obtain ⟨r, hr, rfl⟩ := List.mem_map.1 (show q ∈ j.records.map (mark ids) from hq)
    rw [mark_rowHash, mark_data, h.digested r hr]
  plain := by
    intro q hq
    obtain ⟨r, hr, rfl⟩ := List.mem_map.1 (show q ∈ j.records.map (mark ids) from hq)
    rw [mark_data, h.plain r hr]
  numbered := by
    intro T id
    rw [history_markSynced, List.length_map, ← h.numbered T id, List.map_map]
    exact List.map_congr_left fun r _ => mark_backupVersion ids r
  differ := by
    intro T id
    rw [history_markSynced, List.isChain_map]
    simpa using h.differ T id
  states := by
    intro T id
    rw [history_markSynced, List.getLast?_map, Option.map_map]
    have hfun : ((fun r : BackupRecord => (r.rowHash, r.backupVersion)) ∘ mark ids) = fun r => (r.rowHash, r.backupVersion) := by
      funext r
      simp
    rw [hfun]
    exact h.states T id

end
/-! ## The records of one table -/

def ofTable (j : Journal) (tableName : String) : List BackupRecord := j.records.filter fun r => r.tableName == tableName

theorem mem_ofTable {r : BackupRecord} : r ∈ j.ofTable tableName ↔ r ∈ j.records ∧ r.tableName = tableName := by
  simp [ofTable]

theorem history_eq_filter (j : Journal) (tableName recordId : String) :
    j.history tableName recordId = (j.ofTable tableName).filter fun r => r.recordId == recordId := by
  rw [history, ofTable, List.filter_filter]
  exact List.filter_congr fun r _ => Bool.and_comm _ _

section
variable {codec : Codec} {table : SourceTable} {row : SourceRow} {k : Journal}

theorem Current.congr (hsame : k.ofTable table.name = j.ofTable table.name) (h : j.Current table row) : k.Current table row := by
  rwa [Current, history_eq_filter, hsame, ← history_eq_filter]

theorem unseen_congr (hsame : k.ofTable table.name = j.ofTable table.name) (h : BackupHistory.Unseen codec j table row) :
    BackupHistory.Unseen codec k table row := by
  intro r hr hname hhash
  have hmem : r ∈ j.ofTable table.name := hsame ▸ mem_ofTable.2 ⟨hr, hname⟩
  rw [history_eq_filter, hsame, ← history_eq_filter]
  exact h r (mem_ofTable.1 hmem).1 hname hhash

end
end Journal

/-! ## The worksheet of a table -/

section
variable {codec : Codec} {columns : List String}

theorem ensureHeader_self (columns : List String) : ensureHeader (ensureHeader [] columns) columns = ensureHeader [] columns := by
  have hfull : ensureHeader [] columns = metaColumns ++ columns.filter fun column => decide (column ∉ metaColumns) := by
    simp [ensureHeader]
  have hnone : (ensureHeader [] columns).filter (fun column => decide (column ∉ ensureHeader [] columns)) = [] :=
    List.filter_eq_nil_iff.2 fun column hcolumn => by simpa using hcolumn
  rw [hfull] at hnone ⊢
  rw [ensureHeader, hnone, List.append_nil]

theorem rowHash_mem_ensureHeader (columns : List String) : "_row_hash" ∈ ensureHeader [] columns := by
  simp [ensureHeader, metaColumns]

theorem newRows_eq_map {header existing : List String} {records : List BackupRecord}
    (hnew : ∀ r ∈ records, r.rowHash ∉ existing) (hnodup : (records.map BackupRecord.rowHash).Nodup) :
    newRows codec header existing records = records.map (BackupRecord.sheetRow codec header) := by
  induction records generalizing existing with
  | nil => rfl
  | cons r records ih =>
    rw [List.map_cons, List.nodup_cons] at hnodup
    rw [newRows, if_neg (hnew r List.mem_cons_self), List.map_cons, ih _ hnodup.2]
    intro q hq hmem
    rcases List.mem_append.1 hmem with hmem | hmem
    · exact hnew q (List.mem_cons_of_mem _ hq) hmem
    · exact hnodup.1 (List.mem_singleton.1 hmem ▸ List.mem_map_of_mem hq)

/-- The hash of a record is read back from its row. -/
theorem hash_of_sheetRow {header : List String} (hheader : "_row_hash" ∈ header) {r : BackupRecord}
    (hplain : r.data.lookup "_row_hash" = none) :
    (r.sheetRow codec header)[header.idxOf "_row_hash"]?.bind Worksheet.textCell = some r.rowHash := by
  rw [BackupRecord.sheetRow, List.getElem?_map, List.getElem?_idxOf hheader]
  simp [BackupRecord.rowMap, hplain, sheetCell, Worksheet.textCell]

theorem existingHashes_append {w : Worksheet} (hheader : "_row_hash" ∈ w.header) {records : List BackupRecord}
    (hplain : ∀ r ∈ records, r.data.lookup "_row_hash" = none) :
    ({ w with rows := w.rows ++ records.map (BackupRecord.sheetRow codec w.header) } : Worksheet).existingHashes =
      w.existingHashes ++ records.map BackupRecord.rowHash := by
  have hrows : (records.map (BackupRecord.sheetRow codec w.header)).filterMap
      (fun row => row[w.header.idxOf "_row_hash"]?.bind Worksheet.textCell) = records.map BackupRecord.rowHash := by
    rw [List.filterMap_map, ← List.filterMap_eq_map]
    exact List.filterMap_congr fun r hr => hash_of_sheetRow hheader (hplain r hr)
  simp only [Worksheet.existingHashes, List.filterMap_append, hrows]

end

theorem Schema.same_or_apart (schema : Schema) {table other : SourceTable} (htable : table ∈ schema.tables)
    (hother : other ∈ schema.tables) :
    other = table ∨ (other.name ≠ table.name ∧ worksheetTitle other.name ≠ worksheetTitle table.name) := by
  by_cases htitle : worksheetTitle other.name = worksheetTitle table.name
  · exact .inl (List.inj_on_of_nodup_map schema.distinct hother htable htitle)
  · exact .inr ⟨fun hname => htitle (congrArg worksheetTitle hname), htitle⟩

/-! ## What is stored between two tables -/

namespace Backups

structure Stored (codec : Codec) (schema : Schema) (s : Backups) : Prop where
  recorded : s.journal.Recorded codec
  synced : ∀ r ∈ s.journal.records, r.synced = true
  headers : ∀ table ∈ schema.tables, s.sheets (worksheetTitle table.name) = {} ∨
    (s.sheets (worksheetTitle table.name)).header = ensureHeader [] table.columns
  exported : ∀ table ∈ schema.tables, ∀ r ∈ s.journal.ofTable table.name,
    r.sheetRow codec (s.sheets (worksheetTitle table.name)).header ∈ (s.sheets (worksheetTitle table.name)).rows
  hashes : ∀ table ∈ schema.tables, ∀ text ∈ (s.sheets (worksheetTitle table.name)).existingHashes,
    ∃ r ∈ s.journal.ofTable table.name, r.rowHash = text

namespace Stored
open Journal
variable {codec : Codec} {schema : Schema} {s : Backups} {table : SourceTable} {rows : List SourceRow} {k : Journal}

theorem header_eq (h : Stored codec schema s) (htable : table ∈ schema.tables) :
    ensureHeader (s.sheets (worksheetTitle table.name)).header table.columns = ensureHeader [] table.columns := by
  rcases h.headers table htable with hempty | hfull
  · rw [hempty]
  · rw [hfull, ensureHeader_self]

/-- The rows that stand in the worksheet already have its header. -/
theorem existingHashes_eq (h : Stored codec schema s) (htable : table ∈ schema.tables) :
    ({ s.sheets (worksheetTitle table.name) with header := ensureHeader [] table.columns } : Worksheet).existingHashes =
      (s.sheets (worksheetTitle table.name)).existingHashes := by
  rcases h.headers table htable with hempty | hfull
  · rw [hempty]
    rfl
  · rw [← hfull]

/-- No new version has a hash that stands in the worksheet. -/
theorem not_mem_existing (h : Stored codec schema s) (htable : table ∈ schema.tables) (hk : Exported codec table rows s.journal k)
    {records : List BackupRecord} (hrecords : k.records = s.journal.records ++ records)
    (hname : ∀ r ∈ records, r.tableName = table.name) :
    (∀ r ∈ records, r.rowHash ∉ (s.sheets (worksheetTitle table.name)).existingHashes) ∧
      (records.map BackupRecord.rowHash).Nodup := by
  have hnodup := hk.recorded.hashes
  rw [hrecords, List.map_append, List.nodup_append] at hnodup
  refine ⟨fun r hr hmem => ?_, ?_⟩
  · obtain ⟨q, hq, hhash⟩ := h.hashes table htable _ hmem
    have hq' := mem_ofTable.1 hq
    refine hnodup.2.2 _ (List.mem_map_of_mem hq'.1) _ (List.mem_map_of_mem hr) ?_
    rw [hq'.2, hname r hr, hhash]
  · have hpairs : records.map (fun r => (r.tableName, r.rowHash)) = (records.map BackupRecord.rowHash).map (Prod.mk table.name) := by
      rw [List.map_map]
      exact List.map_congr_left fun r hr => by rw [hname r hr]; rfl
    rw [hpairs] at hnodup
    exact hnodup.2.1.of_map _

/-- The records of the other tables are marked already. -/
theorem ofTable_markSynced (h : Stored codec schema s) {records : List BackupRecord}
    (hrecords : k.records = s.journal.records ++ records) (hname : ∀ r ∈ records, r.tableName = table.name) (ids : List ℕ)
    {tableName : String} (hother : tableName ≠ table.name) :
    (k.markSynced ids).ofTable tableName = s.journal.ofTable tableName := by
  have hnone : records.filter (fun r => r.tableName == tableName) = [] :=
    List.filter_eq_nil_iff.2 fun r hr => by simpa [hname r hr] using hother.symm
  have hold : (s.journal.records.map (mark ids)) = s.journal.records :=
    (List.map_congr_left fun r hr => mark_of_synced (h.synced r hr)).trans (List.map_id _)
  have hmarked : (k.markSynced ids).records = s.journal.records ++ records.map (mark ids) := by
    change k.records.map (mark ids) = _
    rw [hrecords, List.map_append, hold]
  rw [ofTable, hmarked, List.filter_append, List.filter_map]
  simp only [Function.comp_def, mark_tableName, hnone, List.map_nil, List.append_nil]
  rfl

/-- The new versions are appended to the worksheet and marked. -/
theorem syncTable (h : Stored codec schema s) (htable : table ∈ schema.tables) (hk : Exported codec table rows s.journal k)
    {records : List BackupRecord} (hrecords : k.records = s.journal.records ++ records)
    (hname : ∀ r ∈ records, r.tableName = table.name) :
    Stored codec schema (Backups.syncTable codec { s with journal := k } table.name table.columns records) := by
  obtain ⟨hfresh, hnodup⟩ := h.not_mem_existing htable hk hrecords hname
  have hplain : ∀ r ∈ records, r.data.lookup "_row_hash" = none :=
    fun r hr => hk.recorded.plain r (hrecords ▸ List.mem_append_right _ hr)
  have hsheet : (Backups.syncTable codec { s with journal := k } table.name table.columns records).sheets =
      Function.update s.sheets (worksheetTitle table.name)
        ⟨ensureHeader [] table.columns, (s.sheets (worksheetTitle table.name)).rows ++
          records.map (BackupRecord.sheetRow codec (ensureHeader [] table.columns))⟩ := by
    simp only [Backups.syncTable, h.header_eq htable, h.existingHashes_eq htable, newRows_eq_map hfresh hnodup]
  have hothers : ∀ other ∈ schema.tables, other ≠ table →
      (Backups.syncTable codec { s with journal := k } table.name table.columns records).sheets (worksheetTitle other.name) =
          s.sheets (worksheetTitle other.name) ∧
        (k.markSynced (records.map BackupRecord.id)).ofTable other.name = s.journal.ofTable other.name := by
    intro other hother hne
    obtain ⟨hnames, htitles⟩ := (schema.same_or_apart htable hother).resolve_left hne
    refine ⟨?_, h.ofTable_markSynced hrecords hname _ hnames⟩
    rw [hsheet, Function.update_of_ne htitles]
  have hself := congrFun hsheet (worksheetTitle table.name)
  rw [Function.update_self] at hself
  refine ⟨hk.recorded.markSynced _, ?_, ?_, ?_, ?_⟩
  · intro q hq
    obtain ⟨r, hr, rfl⟩ := List.mem_map.1 (show q ∈ k.records.map (mark (records.map BackupRecord.id)) from hq)
    rw [hrecords] at hr
    rcases List.mem_append.1 hr with hr | hr
    · rw [mark_of_synced (h.synced r hr), h.synced r hr]
    · rw [mark, if_pos (List.mem_map_of_mem hr)]
  · intro other hother
    by_cases hne : other = table
    · rw [hne, hself]
      exact .inr rfl
    · rw [(hothers other hother hne).1]
      exact h.headers other hother
  · intro other hother q hq
    by_cases hne : other = table
    · subst hne
      obtain ⟨hq, hqname⟩ := mem_ofTable.1 hq
      obtain ⟨r, hr, rfl⟩ := List.mem_map.1 (show q ∈ k.records.map (mark (records.map BackupRecord.id)) from hq)
      rw [hself, mark_sheetRow]
      rw [hrecords] at hr
      rcases List.mem_append.1 hr with hr | hr
      · have hrow := h.exported other htable r (mem_ofTable.2 ⟨hr, by simpa using hqname⟩)
        rcases h.headers other htable with hempty | hfull
        · rw [hempty] at hrow
          cases hrow
        · rw [hfull] at hrow
          exact List.mem_append_left _ hrow
      · exact List.mem_append_right _ (List.mem_map_of_mem hr)
    · obtain ⟨hsheets, hrows⟩ := hothers other hother hne
      rw [hsheets]
      exact h.exported other hother q (hrows ▸ hq)
  · intro other hother text htext
    by_cases hne : other = table
    · subst hne
      rw [hself, existingHashes_append (w := ⟨ensureHeader [] other.columns, (s.sheets (worksheetTitle other.name)).rows⟩)
        (rowHash_mem_ensureHeader _) hplain, h.existingHashes_eq htable] at htext
      have hmarked : ∀ r ∈ k.records, r.tableName = other.name → r.rowHash = text →
          ∃ q ∈ (k.markSynced (records.map BackupRecord.id)).ofTable other.name, q.rowHash = text := by
        intro r hr hrname hhash
        refine ⟨mark (records.map BackupRecord.id) r, mem_ofTable.2 ⟨List.mem_map_of_mem hr, ?_⟩, ?_⟩
        · rw [mark_tableName, hrname]
        · rw [mark_rowHash, hhash]
      rcases List.mem_append.1 htext with htext | htext
      · obtain ⟨r, hr, hhash⟩ := h.hashes other htable text htext
        have hr' := mem_ofTable.1 hr
        exact hmarked r (hrecords ▸ List.mem_append_left _ hr'.1) hr'.2 hhash
      · obtain ⟨r, hr, hhash⟩ := List.mem_map.1 htext
        exact hmarked r (hrecords ▸ List.mem_append_right _ hr) (hname r hr) hhash
    · obtain ⟨hsheets, hrows⟩ := hothers other hother hne
      rw [hsheets] at htext
      obtain ⟨q, hq, hhash⟩ := h.hashes other hother text htext
      exact ⟨q, hrows ▸ hq, hhash⟩

/-- The new versions of a table. -/
theorem noSync (h : Stored codec schema s) (hk : Exported codec table rows s.journal k)
    (hrecords : k.records = s.journal.records) : Stored codec schema { s with journal := k } := by
  have hsame : ∀ tableName, k.ofTable tableName = s.journal.ofTable tableName := fun _ => by rw [ofTable, hrecords, ofTable]
  exact ⟨hk.recorded, fun r hr => h.synced r (hrecords ▸ hr), h.headers,
    fun other hother r hr => h.exported other hother r (hsame _ ▸ hr),
    fun other hother text htext => by
      obtain ⟨r, hr, hhash⟩ := h.hashes other hother text htext
      exact ⟨r, (hsame other.name).symm ▸ hr, hhash⟩⟩

/-- **One table**: all its batches commit, every row is current, and the other tables are left alone. -/
theorem processTable (h : Stored codec schema s) (htable : table ∈ schema.tables) (hcolumns : table.columns ≠ []) (now : String)
    (hids : (rows.map SourceRow.recordId).Nodup) (hhashes : (rows.map fun row => codec.digest (row.data table)).Nodup)
    (hunseen : ∀ row ∈ rows, BackupHistory.Unseen codec s.journal table row) :
    ∃ t, Backups.processTable codec now s table rows = (t, true) ∧ Stored codec schema t ∧
      (∀ row ∈ rows, t.journal.Current table row) ∧
      ∀ tableName, tableName ≠ table.name → t.journal.ofTable tableName = s.journal.ofTable tableName := by
  have hflatten : (chunks defaultBatchSize rows.length rows).flatten = rows := flatten_chunks (by decide) le_rfl
  have hbatches : s.journal.processBatches codec now table (chunks defaultBatchSize rows.length rows) =
      (rows.foldl (processRow codec now table) s.journal, true) := by
    have hall := @processBatches_eq s.journal codec now table (chunks defaultBatchSize rows.length rows)
      h.recorded (by rwa [hflatten]) (by rwa [hflatten]) (by rwa [hflatten])
    rwa [hflatten] at hall
  have hexported : Exported codec table rows s.journal (rows.foldl (processRow codec now table) s.journal) :=
    exported_foldl h.recorded hids hhashes hunseen
  obtain ⟨records, hrecords, hnew⟩ := hexported.news
  have hname : ∀ r ∈ records, r.tableName = table.name := fun r hr => (hnew r hr).1
  have hdrop : (rows.foldl (processRow codec now table) s.journal).records.drop s.journal.records.length = records := by
    rw [hrecords, List.drop_left]
  simp only [Backups.processTable, if_neg hcolumns, hbatches, hdrop]
  cases records with
  | nil =>
    rw [List.append_nil] at hrecords
    exact ⟨_, rfl, h.noSync hexported hrecords, hexported.current, fun tableName _ => by rw [ofTable, hrecords, ofTable]⟩
  | cons r rest =>
    refine ⟨_, rfl, h.syncTable htable hexported hrecords hname, fun row hrow => ?_, fun tableName hother =>
      h.ofTable_markSynced hrecords hname _ hother⟩
    obtain ⟨q, hq, hdata⟩ := hexported.current row hrow
    refine ⟨mark ((r :: rest).map BackupRecord.id) q, ?_, by rw [mark_data, hdata]⟩
    change ((Journal.markSynced _ _).history _ _).getLast? = _
    rw [history_markSynced, List.getLast?_map, hq, Option.map_some]

theorem processTables (h : Stored codec schema s) (now : String) (source : String → List SourceRow) {tables : List SourceTable}
    (hsub : ∀ table ∈ tables, table ∈ schema.tables) (hdistinct : (tables.map SourceTable.name).Nodup)
    (hrows : ∀ table ∈ tables, table.columns ≠ [] → ((source table.name).map SourceRow.recordId).Nodup ∧
      ((source table.name).map fun row => codec.digest (row.data table)).Nodup ∧
      ∀ row ∈ source table.name, BackupHistory.Unseen codec s.journal table row) :
    ∃ t, Backups.processTables codec now source s tables = (t, true) ∧ Stored codec schema t ∧
      (∀ table ∈ tables, table.columns ≠ [] → ∀ row ∈ source table.name, t.journal.Current table row) ∧
      ∀ tableName ∉ tables.map SourceTable.name, t.journal.ofTable tableName = s.journal.ofTable tableName := by
  induction tables generalizing s with
  | nil => exact ⟨s, rfl, h, by simp, fun _ _ => rfl⟩
  | cons table tables ih =>
    rw [List.map_cons, List.nodup_cons] at hdistinct
    have hfirst : ∃ t, Backups.processTable codec now s table (source table.name) = (t, true) ∧ Stored codec schema t ∧
        (table.columns ≠ [] → ∀ row ∈ source table.name, t.journal.Current table row) ∧
        ∀ tableName, tableName ≠ table.name → t.journal.ofTable tableName = s.journal.ofTable tableName := by
      by_cases hcolumns : table.columns = []
      · exact ⟨s, by rw [Backups.processTable, if_pos hcolumns], h, fun hne => absurd hcolumns hne, fun _ _ => rfl⟩
      · obtain ⟨hids, hhashes, hunseen⟩ := hrows table List.mem_cons_self hcolumns
        obtain ⟨t, ht, hstored, hcurrent, hothers⟩ :=
          h.processTable (hsub table List.mem_cons_self) hcolumns now hids hhashes hunseen
        exact ⟨t, ht, hstored, fun _ => hcurrent, hothers⟩
    obtain ⟨t, ht, hstored, hcurrent, hothers⟩ := hfirst
    have hapart : ∀ other ∈ tables, other.name ≠ table.name :=
      fun other hother hname => hdistinct.1 (hname ▸ List.mem_map_of_mem hother)
    obtain ⟨u, hu, hustored, hucurrent, huothers⟩ := ih hstored (fun other hother => hsub other (List.mem_cons_of_mem _ hother))
      hdistinct.2 fun other hother hcolumns => by
        obtain ⟨hids, hhashes, hunseen⟩ := hrows other (List.mem_cons_of_mem _ hother) hcolumns
        exact ⟨hids, hhashes, fun row hrow => unseen_congr (hothers _ (hapart other hother)) (hunseen row hrow)⟩
    refine ⟨u, by rw [Backups.processTables, ht]; exact hu, hustored, ?_, ?_⟩
    · intro other hother hcolumns row hrow
      rcases List.mem_cons.1 hother with rfl | hother
      · exact (hcurrent hcolumns row hrow).congr (huothers _ hdistinct.1)
      · exact hucurrent other hother hcolumns row hrow
    · intro tableName hname
      rw [List.map_cons, List.mem_cons, not_or] at hname
      rw [huothers tableName hname.2, hothers tableName hname.1]

theorem kept (h : Stored codec schema s) (htable : table ∈ schema.tables) {row : SourceRow}
    (hcurrent : s.journal.Current table row) : BackupHistory.Kept codec s table row where
  numbered := h.recorded.numbered _ _
  newest := by
    obtain ⟨r, hr, hdata⟩ := hcurrent
    have hstate := h.recorded.states table.name row.recordId
    rw [hr, Option.map_some, Option.map_eq_some_iff] at hstate
    obtain ⟨st, hst, hboth⟩ := hstate
    exact ⟨r, hr, hdata, st, hst, (Prod.mk.inj hboth).1, (Prod.mk.inj hboth).2⟩
  differ := h.recorded.differ _ _
  exported := fun r hr => h.exported table htable r (mem_ofTable.2 ⟨(mem_history.1 hr).1, (mem_history.1 hr).2.1⟩)

end Stored

/-- Nothing is left to retry after a run that came to its end. -/
theorem flushUnsynced_eq {codec : Codec} {tables : List SourceTable} {s : Backups}
    (h : ∀ r ∈ s.journal.records, r.synced = true) : flushUnsynced codec tables s = s := by
  have hpending : s.journal.records.filter (fun r => !r.synced) = [] :=
    List.filter_eq_nil_iff.2 fun r hr => by simp [h r hr]
  simp [flushUnsynced, hpending]

theorem stored_initial (codec : Codec) (schema : Schema) : Stored codec schema {} := by
  refine ⟨⟨?_, ?_, ?_, ?_, ?_, ?_⟩, ?_, ?_, ?_, ?_⟩ <;>
    simp [Journal.history, Journal.state?, Journal.ofTable, Worksheet.existingHashes]

end Backups

/-! ## Runs -/

namespace BackupHistory
variable {codec : Codec} {schema : Schema}

/-- **Step lemma.** -/
theorem step_stored {s : BackupHistory} (h : s.backups.Stored codec schema) {a : BackupRun} (hrows : NoReturn codec schema s a) :
    (s.step codec schema a).backups.Stored codec schema ∧ (s.step codec schema a).Complete codec schema := by
  have hnames : (schema.tables.map SourceTable.name).Nodup := by
    have hdistinct := schema.distinct
    rw [← Function.comp_def worksheetTitle SourceTable.name, ← List.map_map] at hdistinct
    exact hdistinct.of_map _
  obtain ⟨t, ht, hstored, hcurrent, _⟩ := h.processTables a.now a.source (fun _ htable => htable) hnames hrows
  have hstep : s.step codec schema a = ⟨t, a.source, true⟩ := by
    rw [step, Backups.execute, Backups.flushUnsynced_eq h.synced, ht]
  rw [hstep]
  exact ⟨hstored, rfl, fun table htable hcolumns row hrow => hstored.kept htable (hcurrent table htable hcolumns row hrow)⟩

end BackupHistory

/-! ## A direction that is renamed and named back -/

/-- The texts of the row instead of a hash of them. -/
def plainCodec : Codec where
  digest data := String.intercalate ";" (data.map fun p => p.1 ++ "=" ++ (Worksheet.textCell p.2).getD "")
  dumps _ := "{}"

theorem plain_directions : ∀ column ∈ ["code", "name"], column ∉ metaColumns := by decide

def tradeDirections : SourceTable := ⟨"trade_directions", ["code", "name"], plain_directions⟩

theorem distinct_directions : ([tradeDirections].map fun table => worksheetTitle table.name).Nodup := by decide

def directionSchema : Schema := ⟨[tradeDirections], distinct_directions⟩

/-- A run that finds the one direction under a name. -/
def runNamed (name : String) : BackupRun where
  now := "2026-01-01T00:00:00+00:00"
  source _ := [⟨"1", fun column => .str (if column = "name" then name else "IMP")⟩]

namespace BackupHistory

end BackupHistory
end LcsSystem.Backup
