import LcsSystem.Archive.BulkDeletes
import LcsSystem.Archive.LifecycleRuns

/-!
# Runs of bulk deletes

Requests only archive rows, or remove rows of a collection that is not archived (`Advanced`). So what a request has
read stays true but for that, and its answer is decided by its rows: `allOrNothing_iff`.
-/

namespace LcsSystem
open Relational Transition

/-! ## What requests do to the rows -/

/-- No row appears or changes its columns, an archived row stays archived, and only a row that the archive does not know
disappears. -/
structure Advanced (db db' : ArchiveDb) : Prop where
  old : ∀ model i row', (db'.rows model).get? i = some row' →
    ∃ row, (db.rows model).get? i = some row ∧ row'.columns = row.columns
  kept : ∀ model i row, (db.rows model).get? i = some row →
    (∃ row', (db'.rows model).get? i = some row' ∧ (row.deletedAt.isSome = true → row'.deletedAt.isSome = true)) ∨
      model = .moduleRecord ∧ ∀ c ∈ archivableGenericCollections, row.column "collection" ≠ .str c.1

theorem Advanced.refl (db : ArchiveDb) : Advanced db db :=
  ⟨fun _ _ row hrow => ⟨row, hrow, rfl⟩, fun _ _ row hrow => .inl ⟨row, hrow, id⟩⟩

section
variable {db db' : ArchiveDb} {adapter : ArchiveAdapter} {id : ℕ} {row : EntityRow} {call : ArchiveCall}
  {r : DeleteRequest}

theorem rows_archiveLoaded (hrow : entityRow db adapter id = some row) (read : EntityRow) (m : EntityModel) (i : ℕ) :
    ((archiveLoaded db adapter id read call).rows m).get? i =
      if m = adapter.model ∧ i = id then some (row.marked (some call.now) call.userId call.now) else (db.rows m).get? i := by
  show ((ArchiveDb.updateRow adapter.model id call.now _ (putArchivedRecord _ db)).rows m).get? i = _
  rw [ArchiveDb.updateRow, rows_putArchivedRecord]
  exact get?_update_rows (get?_modify_row (Option.filter_eq_some_iff.1 hrow).1 _) m i

theorem advanced_archiveLoaded (hrow : entityRow db adapter id = some row) (read : EntityRow) :
    Advanced db (archiveLoaded db adapter id read call) := by
  have hget : (db.rows adapter.model).get? id = some row := (Option.filter_eq_some_iff.1 hrow).1
  constructor
  · intro model i row' hrow'
    rw [rows_archiveLoaded hrow] at hrow'
    split at hrow'
    · next hthis =>
      obtain ⟨rfl, rfl⟩ := hthis
      cases hrow'
      exact ⟨row, hget, rfl⟩
    · exact ⟨row', hrow', rfl⟩
  · intro model i other hother
    refine .inl ?_
    rw [rows_archiveLoaded hrow]
    split
    · exact ⟨_, rfl, fun _ => rfl⟩
    · exact ⟨other, hother, fun h => h⟩

/-- The row is archived. -/
theorem entityRow_archiveLoaded (hrow : entityRow db adapter id = some row) (read : EntityRow) :
    entityRow (archiveLoaded db adapter id read call) adapter id =
      some (row.marked (some call.now) call.userId call.now) := by
  rw [entityRow, rows_archiveLoaded hrow, if_pos ⟨rfl, rfl⟩]
  exact Option.filter_eq_some_iff.2 ⟨rfl, (Option.filter_eq_some_iff.1 hrow).2⟩

/-! ## The rows of a request -/

theorem entityRow_old (h : Advanced db db') {row' : EntityRow} (hrow : entityRow db' adapter id = some row') :
    ∃ row, entityRow db adapter id = some row := by
  obtain ⟨hget, hscope⟩ := Option.filter_eq_some_iff.1 hrow
  obtain ⟨row, hold, hcolumns⟩ := h.old _ _ _ hget
  refine ⟨row, Option.filter_eq_some_iff.2 ⟨hold, ?_⟩⟩
  simpa only [EntityRow.column, hcolumns] using hscope

theorem found_old (h : Advanced db db') {row' : EntityRow} (hrow : r.found db' id = some row') :
    ∃ row, r.found db id = some row := by
  obtain ⟨adapter, hadapter, hrow⟩ := Option.bind_eq_some_iff.1 hrow
  obtain ⟨row, hold⟩ := entityRow_old h hrow
  exact ⟨row, by rw [DeleteRequest.found, hadapter, Option.bind_some, hold]⟩

theorem adapter_reference (hkind : r.kind = .reference) (hadapter : r.adapter = some adapter) :
    adapter.model ≠ .moduleRecord ∧ adapter.collection = none := by
  rw [DeleteRequest.adapter, hkind] at hadapter
  have hmem : adapter ∈ archiveRegistry := List.mem_of_find?_eq_some hadapter
  have hregistry : ∀ a ∈ archiveRegistry, a.model ≠ .moduleRecord ∧ a.collection = none := by decide
  exact hregistry adapter hmem

theorem adapter_generic (hkind : r.kind = .generic) (hadapter : r.adapter = some adapter) :
    adapter.model = .moduleRecord ∧ adapter.collection = some r.collection := by
  rw [DeleteRequest.adapter, hkind, Option.some.injEq] at hadapter
  subst hadapter
  exact ⟨rfl, rfl⟩

/-- A row that is to be archived stays until it is. -/
theorem found_kept (h : Advanced db db') (harchives : r.archives = true) (hrow : r.found db id = some row) :
    ∃ row', r.found db' id = some row' ∧ (row.deletedAt.isSome = true → row'.deletedAt.isSome = true) := by
  obtain ⟨adapter, hadapter, hrow⟩ := Option.bind_eq_some_iff.1 hrow
  obtain ⟨hget, hscope⟩ := Option.filter_eq_some_iff.1 hrow
  rcases h.kept _ _ _ hget with ⟨row', hget', harchived⟩ | ⟨hmodel, hforeign⟩
  · obtain ⟨old, hold, hcolumns⟩ := h.old _ _ _ hget'
    obtain rfl : row = old := Option.some.inj (hget.symm.trans hold)
    refine ⟨row', ?_, harchived⟩
    rw [DeleteRequest.found, hadapter, Option.bind_some, entityRow]
    exact Option.filter_eq_some_iff.2 ⟨hget', by simpa only [EntityRow.column, hcolumns] using hscope⟩
  · exfalso
    cases hkind : r.kind with
    | reference => exact (adapter_reference hkind hadapter).1 hmodel
    | generic =>
      rw [(adapter_generic hkind hadapter).2, Option.all_some, beq_iff_eq] at hscope
      rw [DeleteRequest.archives, hkind] at harchives
      obtain ⟨c, hc, hname⟩ := List.any_eq_true.1 harchives
      rw [beq_iff_eq] at hname
      exact hforeign c hc (by rw [hscope, hname])

theorem removeLoaded_rows (model : EntityModel) (ids : List ℕ) (m : EntityModel) (i : ℕ) :
    ((removeLoaded db model ids).rows m).get? i = if m = model ∧ i ∈ ids then none else (db.rows m).get? i := by
  by_cases hm : m = model
  · subst hm
    simp only [removeLoaded, Function.update_self, Table.get?_erase, true_and]
    by_cases hi : i ∈ ids
    · rw [if_pos hi]
      cases (db.rows m).get? i <;> simp [Option.filter, hi]
    · rw [if_neg hi]
      cases (db.rows m).get? i <;> simp [Option.filter, hi]
  · simp only [removeLoaded, Function.update_of_ne hm, hm, false_and, if_false]

/-! ## What an open request has read -/

/-- Every listed record that is there was read. -/
def Covered (db : ArchiveDb) (r : DeleteRequest) (ids : List ℕ) (rows : List (ℕ × EntityRow)) : Prop :=
  ∀ i ∈ ids, ∀ row, r.found db i = some row → i ∈ rows.map Prod.fst

/-- The rows that were read belong to the collection, or are gone. -/
def Belong (db : ArchiveDb) (r : DeleteRequest) (rows : List (ℕ × EntityRow)) : Prop :=
  ∀ x ∈ rows, ∃ adapter, r.adapter = some adapter ∧
    ∀ row, (db.rows adapter.model).get? x.1 = some row → entityRow db adapter x.1 = some row

def Present (db : ArchiveDb) (r : DeleteRequest) (rows : List (ℕ × EntityRow)) : Prop :=
  ∀ x ∈ rows, ∃ row, r.found db x.1 = some row

/-- What an open request relies on. -/
def StageTracked (db : ArchiveDb) (r : DeleteRequest) : DeleteStage → Prop
  | .opened => True
  | .reading todo rows => r.kind = .generic ∧ r.refusal rows = none ∧ Belong db r rows ∧
      (r.archives = true → Present db r rows) ∧ ∃ front, r.ids = front ++ todo ∧ Covered db r front rows
  | .archiving rows todo done => r.archives = true ∧ r.refusal rows = none ∧ Covered db r r.ids rows ∧ Present db r rows ∧
      ∃ front, rows = front ++ todo ∧ done = front.map Prod.fst ∧ done.Nodup ∧ (∀ x ∈ front, x.2.deletedAt = none) ∧
        ∀ i ∈ done, ∀ row, r.found db i = some row → row.deletedAt.isSome = true
  | .removing rows => r.archives = false ∧ Belong db r rows ∧ Covered db r r.ids rows

theorem Covered.advanced {ids : List ℕ} {rows : List (ℕ × EntityRow)} (h : Covered db r ids rows) (hdb : Advanced db db') :
    Covered db' r ids rows := by
  intro i hi row' hrow'
  obtain ⟨row, hrow⟩ := found_old hdb hrow'
  exact h i hi row hrow

theorem Belong.advanced {rows : List (ℕ × EntityRow)} (h : Belong db r rows) (hdb : Advanced db db') : Belong db' r rows := by
  intro x hx
  obtain ⟨adapter, hadapter, hbelongs⟩ := h x hx
  refine ⟨adapter, hadapter, fun row' hrow' => ?_⟩
  obtain ⟨row, hrow, hcolumns⟩ := hdb.old _ _ _ hrow'
  have hscope := (Option.filter_eq_some_iff.1 (hbelongs row hrow)).2
  exact Option.filter_eq_some_iff.2 ⟨hrow', by simpa only [EntityRow.column, hcolumns] using hscope⟩

theorem Present.advanced {rows : List (ℕ × EntityRow)} (harchives : r.archives = true) (h : Present db r rows)
    (hdb : Advanced db db') : Present db' r rows := by
  intro x hx
  obtain ⟨row, hrow⟩ := h x hx
  obtain ⟨row', hrow', -⟩ := found_kept hdb harchives hrow
  exact ⟨row', hrow'⟩

/-- Other requests do not disturb an open one. -/
theorem StageTracked.advanced {stage : DeleteStage} (h : StageTracked db r stage) (hdb : Advanced db db') :
    StageTracked db' r stage := by
  cases stage with
  | opened => trivial
  | reading todo rows =>
    obtain ⟨hkind, hrefusal, hbelong, hpresent, front, hids, hcovered⟩ := h
    exact ⟨hkind, hrefusal, hbelong.advanced hdb, fun ha => (hpresent ha).advanced ha hdb, front, hids, hcovered.advanced hdb⟩
  | archiving rows todo done =>
    obtain ⟨harchives, hrefusal, hcovered, hpresent, front, hrows, hdone, hnodup, hfront, harchived⟩ := h
    refine ⟨harchives, hrefusal, hcovered.advanced hdb, hpresent.advanced harchives hdb, front, hrows, hdone, hnodup, hfront, ?_⟩
    intro i hi row' hrow'
    obtain ⟨row, hrow⟩ := found_old hdb hrow'
    obtain ⟨kept, hkept, hmark⟩ := found_kept hdb harchives hrow
    rw [hrow', Option.some.injEq] at hkept
    exact hkept ▸ hmark (harchived i hi row hrow)
  | removing rows =>
    obtain ⟨harchives, hbelong, hcovered⟩ := h
    exact ⟨harchives, hbelong.advanced hdb, hcovered.advanced hdb⟩

/-! ## Answers -/

/-- A request that its guards refuse has committed nothing. -/
theorem allOrNothing_refused {rows : List (ℕ × EntityRow)} {e : Error}
    (h : r.adapter = none ∨ r.refusal rows ≠ none) :
    (⟨r, rows, [], .error e, db⟩ : DeleteOutcome).AllOrNothing ↔ (⟨r, rows, [], .error e, db⟩ : DeleteOutcome).Uniform := by
  refine iff_of_true rfl ?_
  rcases h with h | h
  · exact .inl h
  · exact .inr (.inl h)

/-- A row that is archived already ends the request. -/
theorem allOrNothing_stopped {rows todo : List (ℕ × EntityRow)} {x : ℕ × EntityRow} {done : List ℕ} {e : Error}
    (hadapter : r.adapter = some adapter) (h : StageTracked db r (.archiving rows (x :: todo) done))
    (hx : x.2.deletedAt.isSome = true ∨ x.1 ∈ done) :
    (⟨r, rows, done, .error e, db⟩ : DeleteOutcome).AllOrNothing ↔ (⟨r, rows, done, .error e, db⟩ : DeleteOutcome).Uniform := by
  obtain ⟨harchives, hrefusal, -, -, front, hrows, hdone, -, hfront, -⟩ := h
  show done = [] ↔ _
  cases front with
  | nil =>
    refine iff_of_true hdone (.inr (.inr (.inr (.inl ⟨x, by rw [hrows]; rfl, ?_⟩))))
    refine hx.resolve_right fun hmem => ?_
    rw [hdone] at hmem
    cases hmem
  | cons y front =>
    refine iff_of_false (by rw [hdone]; exact List.cons_ne_nil _ _) ?_
    have hhead : (y :: front ++ x :: todo).head? = some y := rfl
    rintro (hnone | hsome | hremoves | ⟨z, hz, hmark⟩ | ⟨hall, hnodup⟩)
    · rw [hadapter] at hnone
      cases hnone
    · exact hsome hrefusal
    · rw [harchives] at hremoves
      cases hremoves
    · rw [hrows, hhead] at hz
      cases hz
      rw [hfront y List.mem_cons_self] at hmark
      cases hmark
    · rw [hrows] at hall hnodup
      rcases hx with hmark | hmem
      · rw [hall x (List.mem_append_right _ List.mem_cons_self)] at hmark
        cases hmark
      · rw [List.map_append] at hnodup
        exact (List.nodup_append.1 hnodup).2.2 x.1 (hdone ▸ hmem) x.1 (List.mem_map.2 ⟨x, List.mem_cons_self, rfl⟩) rfl

theorem allOrNothing_archived {rows : List (ℕ × EntityRow)} {done : List ℕ}
    (h : StageTracked db r (.archiving rows [] done)) :
    (⟨r, rows, done, .ok ⟨⟩, db⟩ : DeleteOutcome).AllOrNothing ↔ (⟨r, rows, done, .ok ⟨⟩, db⟩ : DeleteOutcome).Uniform := by
  obtain ⟨-, -, hcovered, -, front, hrows, hdone, hnodup, hfront, harchived⟩ := h
  rw [List.append_nil] at hrows
  subst hrows
  refine iff_of_true (fun i hi row hrow => ?_) (.inr (.inr (.inr (.inr ⟨hfront, hdone ▸ hnodup⟩))))
  exact harchived i (hdone ▸ hcovered i hi row hrow) row hrow

theorem allOrNothing_removed {rows : List (ℕ × EntityRow)} (hadapter : r.adapter = some adapter)
    (h : StageTracked db r (.removing rows)) :
    (⟨r, rows, rows.map Prod.fst, .ok ⟨⟩, removeLoaded db adapter.model (rows.map Prod.fst)⟩ : DeleteOutcome).AllOrNothing ↔
      (⟨r, rows, rows.map Prod.fst, .ok ⟨⟩, removeLoaded db adapter.model (rows.map Prod.fst)⟩ : DeleteOutcome).Uniform := by
  obtain ⟨harchives, -, hcovered⟩ := h
  refine iff_of_true (fun i hi row hrow => ?_) (.inr (.inr (.inl harchives)))
  have hrow' : r.found (removeLoaded db adapter.model (rows.map Prod.fst)) i = some row := hrow
  rw [DeleteRequest.found, hadapter, Option.bind_some] at hrow'
  obtain ⟨hget, hscope⟩ := Option.filter_eq_some_iff.1 hrow'
  rw [removeLoaded_rows] at hget
  split at hget
  · cases hget
  · next hnot =>
    have hfound : r.found db i = some row := by
      rw [DeleteRequest.found, hadapter, Option.bind_some]
      exact Option.filter_eq_some_iff.2 ⟨hget, hscope⟩
    exact absurd ⟨rfl, hcovered i hi row hfound⟩ hnot

end

/-! ## One statement -/

/-- The open requests rely on what is so, and every answer was decided by the rows that were read. -/
structure DeletesTracked (s : DeleteState) : Prop where
  requests : ∀ i x, s.requests.get? i = some x → StageTracked s.db x.1 x.2
  log : ∀ o ∈ s.log, o.AllOrNothing ↔ o.Uniform

section
variable {s : DeleteState} {id now : ℕ} {r : DeleteRequest} {stage : DeleteStage} {adapter : ArchiveAdapter}

theorem tracked_idle (db : ArchiveDb) : DeletesTracked (.idle db) where
  requests _ _ hi := by cases hi
  log _ ho := by cases ho

theorem tracked_moves {db' : ArchiveDb} (h : DeletesTracked s) (hid : s.requests.get? id = some (r, stage))
    (hdb : Advanced s.db db') {stage' : DeleteStage} (hstage : StageTracked db' r stage') :
    DeletesTracked { s.continues id r stage' with db := db' } where
  requests := Table.forall_modify hid (fun i x hi => (h.requests i x hi).advanced hdb) hstage
  log := h.log

theorem tracked_answers {db' : ArchiveDb} (h : DeletesTracked s) (hdb : Advanced s.db db') {rows : List (ℕ × EntityRow)}
    {done : List ℕ} {result : Result PUnit.{1}}
    (hanswer : (⟨r, rows, done, result, db'⟩ : DeleteOutcome).AllOrNothing ↔
      (⟨r, rows, done, result, db'⟩ : DeleteOutcome).Uniform) :
    DeletesTracked ({ s with db := db' }.ends id r rows done result) where
  requests i x hi := by
    rw [DeleteState.ends, Table.get?_erase, Option.filter_eq_some_iff] at hi
    exact (h.requests i x hi.1).advanced hdb
  log o ho := by
    rcases List.mem_append.1 ho with ho | ho
    · exact h.log o ho
    · rw [List.mem_singleton.1 ho]
      exact hanswer

/-- The rows of a table, as a request reads them. -/
theorem tracked_opens (h : DeletesTracked s) (hid : s.requests.get? id = some (r, stage))
    (hadapter : r.adapter = some adapter) : DeletesTracked (s.opens id r adapter) := by
  unfold DeleteState.opens
  split
  · next hkind =>
    refine tracked_moves h hid (.refl _) ⟨hkind, ?_, by simp [Belong], fun _ => by simp [Present], [], rfl, ?_⟩
    · simp [DeleteRequest.refusal, hkind]
    · intro i hi
      cases hi
  · next hkind =>
    have hscope := (adapter_reference hkind hadapter).2
    have hfound (i : ℕ) : r.found s.db i = (s.db.rows adapter.model).get? i := by
      rw [DeleteRequest.found, hadapter, Option.bind_some, entityRow, hscope]
      cases (s.db.rows adapter.model).get? i <;> simp
    simp only
    split
    · next e hrefusal => exact tracked_answers h (.refl _) (allOrNothing_refused (.inr (by rw [hrefusal]; simp)))
    · next hrefusal =>
      refine tracked_moves h hid (.refl _) ⟨by rw [DeleteRequest.archives, hkind], hrefusal, fun i hi row hrow => ?_,
        fun x hx => ?_, [], rfl, rfl, List.nodup_nil, by simp, by simp⟩
      · rw [hfound] at hrow
        exact List.mem_map.2 ⟨(i, row), List.mem_filter.2 ⟨Table.get?_eq_some.1 hrow, by simpa using hi⟩, rfl⟩
      · exact ⟨x.2, by rw [hfound]; exact Table.get?_eq_some.2 (List.mem_filter.1 hx).1⟩

/-- A turn of the loop that reads. -/
theorem tracked_reads (h : DeletesTracked s) {recordId : ℕ} {todo : List ℕ} {rows : List (ℕ × EntityRow)}
    (hid : s.requests.get? id = some (r, .reading (recordId :: todo) rows)) (hadapter : r.adapter = some adapter) :
    DeletesTracked (s.reads id r recordId todo rows) := by
  obtain ⟨hkind, hrefusal, hbelong, hpresent, front, hids, hcovered⟩ := h.requests id _ hid
  have hids' : r.ids = (front ++ [recordId]) ++ todo := by rw [hids, List.append_assoc]; rfl
  unfold DeleteState.reads
  split
  · next hnone =>
    rw [Option.or_eq_none_iff] at hnone
    refine tracked_moves h hid (.refl _) ⟨hkind, hrefusal, hbelong, hpresent, _, hids', fun i hi row hrow => ?_⟩
    rcases List.mem_append.1 hi with hi | hi
    · exact hcovered i hi row hrow
    · rw [List.mem_singleton.1 hi, hnone.2] at hrow
      cases hrow
  · next row hrow =>
    split
    · next e hrefused => exact tracked_answers h (.refl _) (allOrNothing_refused (.inr (by rw [hrefused]; simp)))
    · next haccepted =>
      -- The record was read in an earlier turn, or is found now.
      have hread : (recordId, row) ∈ rows ∨ r.found s.db recordId = some row := by
        rcases Option.or_eq_some_iff.1 hrow with hlookup | ⟨-, hfound⟩
        · exact .inl (Entries.mem_of_lookup hlookup)
        · exact .inr hfound
      refine tracked_moves h hid (.refl _) ⟨hkind, haccepted, fun x hx => ?_, fun ha x hx => ?_, _, hids', fun i hi old hold => ?_⟩
      · rcases List.mem_append.1 hx with hx | hx
        · exact hbelong x hx
        · rw [List.mem_singleton.1 hx]
          rcases hread with hmem | hfound
          · exact hbelong _ hmem
          · refine ⟨adapter, hadapter, fun now' hnow => ?_⟩
            rw [DeleteRequest.found, hadapter, Option.bind_some] at hfound
            obtain ⟨hget, -⟩ := Option.filter_eq_some_iff.1 hfound
            rw [hfound, ← hget, hnow]
      · rcases List.mem_append.1 hx with hx | hx
        · exact hpresent ha x hx
        · rw [List.mem_singleton.1 hx]
          rcases hread with hmem | hfound
          · exact hpresent ha _ hmem
          · exact ⟨row, hfound⟩
      · rw [List.map_append]
        rcases List.mem_append.1 hi with hi | hi
        · exact List.mem_append_left _ (hcovered i hi old hold)
        · exact List.mem_append_right _ (by rw [List.mem_singleton.1 hi]; exact List.mem_singleton_self _)

/-- A turn of the loop that archives. -/
theorem tracked_archivesNext (h : DeletesTracked s) {rows todo : List (ℕ × EntityRow)} {x : ℕ × EntityRow} {done : List ℕ}
    (hid : s.requests.get? id = some (r, .archiving rows (x :: todo) done)) (hadapter : r.adapter = some adapter) :
    DeletesTracked (s.archivesNext id now r adapter rows x todo done) := by
  have hstage := h.requests id _ hid
  obtain ⟨harchives, hrefusal, hcovered, hpresent, front, hrows, hdone, hnodup, hfront, harchived⟩ := hstage
  have hfound (db : ArchiveDb) (i : ℕ) : r.found db i = entityRow db adapter i := by
    rw [DeleteRequest.found, hadapter, Option.bind_some]
  unfold DeleteState.archivesNext
  split
  · next hgone =>
    obtain ⟨row, hrow⟩ := hpresent x (hrows ▸ List.mem_append_right _ List.mem_cons_self)
    rw [hfound, hgone] at hrow
    cases hrow
  · next row hrow =>
    split
    · next hx => exact tracked_answers h (.refl _) (allOrNothing_stopped hadapter (h.requests id _ hid) hx)
    · next hx =>
      rw [not_or] at hx
      have hdb : Advanced s.db (archiveLoaded s.db adapter x.1 x.2 ⟨some r.userId, now, [], true⟩) :=
        advanced_archiveLoaded hrow x.2
      refine tracked_moves h hid hdb ⟨harchives, hrefusal, hcovered.advanced hdb, hpresent.advanced harchives hdb,
        front ++ [x], by rw [hrows, List.append_assoc]; rfl, by rw [hdone, List.map_append]; rfl, ?_, ?_, ?_⟩
      · exact List.nodup_append.2 ⟨hnodup, List.nodup_singleton _, fun a ha b hb heq =>
          hx.2 (by rw [← List.mem_singleton.1 hb, ← heq]; exact ha)⟩
      · intro y hy
        rcases List.mem_append.1 hy with hy | hy
        · exact hfront y hy
        · rw [List.mem_singleton.1 hy]
          simpa using hx.1
      · intro i hi new hnew
        rw [hfound] at hnew
        by_cases hthis : i = x.1
        · rw [hthis, entityRow_archiveLoaded hrow, Option.some.injEq] at hnew
          rw [← hnew]
          rfl
        · have hi' : i ∈ done := (List.mem_append.1 hi).resolve_right fun hmem => hthis (List.mem_singleton.1 hmem)
          obtain ⟨old, hold⟩ := entityRow_old hdb hnew
          have hmark := harchived i hi' old (by rw [hfound, hold])
          obtain ⟨kept, hkept, hstays⟩ := found_kept hdb harchives (by rw [hfound, hold])
          rw [hfound, hnew, Option.some.injEq] at hkept
          exact hkept ▸ hstays hmark

theorem advanced_removeLoaded {rows : List (ℕ × EntityRow)} (hadapter : r.adapter = some adapter)
    (harchives : r.archives = false) (hbelong : Belong s.db r rows) :
    Advanced s.db (removeLoaded s.db adapter.model (rows.map Prod.fst)) := by
  have hkind : r.kind = .generic := by
    cases hkind : r.kind with
    | generic => rfl
    | reference =>
      rw [DeleteRequest.archives, hkind] at harchives
      cases harchives
  obtain ⟨hmodel, hcollection⟩ := adapter_generic hkind hadapter
  constructor
  · intro model i row' hrow'
    rw [removeLoaded_rows] at hrow'
    split at hrow'
    · cases hrow'
    · exact ⟨row', hrow', rfl⟩
  · intro model i row hrow
    by_cases hthis : model = adapter.model ∧ i ∈ rows.map Prod.fst
    · refine .inr ⟨hthis.1.trans hmodel, fun c hc heq => ?_⟩
      obtain ⟨rfl, hi⟩ := hthis
      obtain ⟨x, hx, rfl⟩ := List.mem_map.1 hi
      obtain ⟨own, hown, hrows⟩ := hbelong x hx
      obtain rfl : adapter = own := Option.some.inj (hadapter.symm.trans hown)
      have hscope := (Option.filter_eq_some_iff.1 (hrows row hrow)).2
      rw [hcollection, Option.all_some, beq_iff_eq, heq] at hscope
      rw [DeleteRequest.archives, hkind, List.any_eq_false] at harchives
      exact harchives c hc (by rw [beq_iff_eq]; exact Json.str.inj hscope)
    · refine .inl ⟨row, ?_, fun hmark => hmark⟩
      rw [removeLoaded_rows, if_neg hthis, hrow]

theorem tracked_statement (h : DeletesTracked s) (hid : s.requests.get? id = some (r, stage)) :
    DeletesTracked (s.next id now r stage) := by
  unfold DeleteState.next
  cases hadapter : r.adapter with
  | none => exact tracked_answers h (.refl _) (allOrNothing_refused (.inl hadapter))
  | some adapter =>
    have hstage := h.requests id _ hid
    cases stage with
    | opened => exact tracked_opens h hid hadapter
    | reading todo rows =>
      cases todo with
      | cons recordId todo => exact tracked_reads h hid hadapter
      | nil =>
        obtain ⟨hkind, hrefusal, hbelong, hpresent, front, hids, hcovered⟩ := hstage
        rw [List.append_nil] at hids
        subst hids
        cases harchives : r.archives with
        | true =>
          exact tracked_moves h hid (.refl _) ⟨harchives, hrefusal, hcovered, hpresent harchives, [], rfl, rfl, List.nodup_nil,
            by simp, by simp⟩
        | false => exact tracked_moves h hid (.refl _) ⟨harchives, hbelong, hcovered⟩
    | archiving rows todo done =>
      cases todo with
      | cons x todo => exact tracked_archivesNext h hid hadapter
      | nil => exact tracked_answers h (.refl _) (allOrNothing_archived hstage)
    | removing rows =>
      obtain ⟨harchives, hbelong, -⟩ := hstage
      exact tracked_answers h (advanced_removeLoaded hadapter harchives hbelong) (allOrNothing_removed hadapter
        (h.requests id _ hid))

end

/-! ## Runs -/

theorem tracked_deleteStep (s : DeleteState) (a : DeleteAction) (h : DeletesTracked s) : DeletesTracked (deleteStep s a) := by
  cases a with
  | start r => exact ⟨Table.forall_insert h.requests trivial, h.log⟩
  | advance id now =>
    cases hid : s.requests.get? id with
    | none =>
      simp only [deleteStep, hid]
      exact h
    | some x =>
      simp only [deleteStep, hid]
      exact tracked_statement h hid

/-- **Bulk deletes**: whatever else runs, a request is all or nothing exactly if its rows are alike. -/
theorem allOrNothing_iff (db : ArchiveDb) (as : List DeleteAction) (o : DeleteOutcome)
    (h : o ∈ (run deleteStep (.idle db) as).log) : o.AllOrNothing ↔ o.Uniform :=
  (run_invariant DeletesTracked tracked_deleteStep as (tracked_idle db)).log o h

/-! ## Two fee types -/

def inactiveFee (code : String) (deletedAt : Option ℕ) : EntityRow :=
  ⟨[("code", .str code), ("name", .str code), ("status", .str "INACTIVE")], 1, deletedAt, none⟩

/-- Two fee types, the second with this mark. -/
def twoFees (deletedAt : Option ℕ) : ArchiveDb :=
  .fresh (Function.update (fun _ => .empty) .feeType
    ((Table.empty.insert (inactiveFee "THC" none)).insert (inactiveFee "DOC" deletedAt)))

def deleteFees : DeleteRequest := ⟨.reference, "feeTypes", [1, 2], 7, []⟩

/-- Two requests for the same rows, statement by statement. -/
def bothDelete : List DeleteAction :=
  [.start deleteFees, .start deleteFees, .advance 1 2, .advance 2 3, .advance 1 4, .advance 2 5, .advance 2 6, .advance 1 7,
    .advance 1 8, .advance 2 9]

theorem allOrNothing_bothDelete :
    (run deleteStep (.idle (twoFees none)) bothDelete).log.length = 2 ∧
      ∀ o ∈ (run deleteStep (.idle (twoFees none)) bothDelete).log, o.AllOrNothing := by
  refine ⟨by decide +kernel, fun o ho => (allOrNothing_iff (twoFees none) bothDelete o ho).2 ?_⟩
  have hrows : ∀ o ∈ (run deleteStep (.idle (twoFees none)) bothDelete).log,
      (∀ x ∈ o.rows, x.2.deletedAt = none) ∧ (o.rows.map Prod.fst).Nodup := by decide +kernel
  exact .inr (.inr (.inr (.inr (hrows o ho))))

/-- The first fee type is archived and committed before the second one turns out to be archived already. -/
theorem half_deleted :
    ∃ o ∈ (run deleteStep (.idle (twoFees (some 1))) [.start deleteFees, .advance 1 2, .advance 1 3, .advance 1 4]).log,
      ¬o.AllOrNothing := by
  have hone : (run deleteStep (.idle (twoFees (some 1))) [.start deleteFees, .advance 1 2, .advance 1 3,
      .advance 1 4]).log.any (fun o => !o.result.isOk && o.done == [1]) = true := by decide +kernel
  obtain ⟨o, ho, houtcome⟩ := List.any_eq_true.1 hone
  rw [Bool.and_eq_true, beq_iff_eq] at houtcome
  refine ⟨o, ho, fun h => ?_⟩
  unfold DeleteOutcome.AllOrNothing at h
  split at h
  · next hresult =>
    rw [hresult] at houtcome
    exact Bool.false_ne_true houtcome.1
  · rw [houtcome.2] at h
    cases h

end LcsSystem
