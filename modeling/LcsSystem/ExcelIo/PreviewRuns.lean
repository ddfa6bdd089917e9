import LcsSystem.ExcelIo.ImportRuns

/-!
# A preview and the confirmation behind it

`start_import` and `confirm_import` of `src/backend/app/modules/excel_io/service.py` (368-424, 512-573) on records that do
not change in between. The preview checks each row against the records as they are stored; the confirmation checks them
again and then writes them one after the other, normalised, under the constraints of the table.

| here                | there                                                                              |
|---------------------|------------------------------------------------------------------------------------|
| `Performs`          | what a preview promises: the action of each row, in turn                             |
| `flushesHold`       | the flushes of a batch: behind each `CREATE` row, and at the commit                  |
| `Sessions.replace`  | the user's pending session gives way to the new one; expired ones are purged         |

Parsing, the limit of rows and the checksum are left out.
-/

namespace LcsSystem.ExcelIo
open Relational Transition

/-! ## The promise -/

namespace Pipeline
variable (c : Pipeline)

/-- The record that has the match key of this one. -/
def recordOf (records : Records) (row : RecordRow) : Option RecordRow :=
  (records.rows.find? fun r => !r.2.deleted &&
    c.module.matchKey.all fun key => decide (r.2.attrs (c.attrOf key) = row.attrs (c.attrOf key))).map Prod.snd

end Pipeline

/-- No check of a row reads another record of the collection. -/
structure LocalCollection extends Collection where
  createApart : ∀ records others data,
    toPipeline.revise true records Pipeline.blank data = toPipeline.revise true others Pipeline.blank data
  updateApart : ∀ records others row data, toPipeline.recordOf records row = some row → toPipeline.recordOf others row = some row →
    toPipeline.revise false records row data = toPipeline.revise false others row data

/-- The rows are performed as previewed: a new record for each `CREATE`, the named record revised for each `UPDATE`. -/
inductive Performs (c : Pipeline) : Records → List Item → Records → Prop
  | nil (t : Records) : Performs c t [] t
  | create {t after : Records} {data : Data} {row : RecordRow} {items : List Item} :
    c.revise true t Pipeline.blank data = .ok row → Performs c (t.insert row) items after →
      Performs c t (.create data :: items) after
  | update {t after : Records} {data : Data} {id : ℕ} {row revised : RecordRow} {items : List Item} :
    t.get? id = some row → c.revise false t row (c.updates data) = .ok revised →
      Performs c (t.modify id fun _ => revised) items after → Performs c t (.update data id :: items) after
  | skip {t after : Records} {id : ℕ} {items : List Item} : Performs c t items after → Performs c t (.skip id :: items) after

namespace Pipeline
variable (c : Pipeline)

/-- The records with the action of a row performed. -/
def acted (records : Records) : Item → Records
  | .create data =>
    match c.revise true records blank data with
    | .ok row => records.insert row
    | .error _ => records
  | .update data id => records.modify id fun row =>
    match c.revise false records row (c.updates data) with
    | .ok revised => revised
    | .error _ => row
  | .skip _ | .error _ => records

/-- The table is in order behind each statement of the batch. -/
def flushesHold (stored view : Records) : List Item → Bool
  | [] => c.flushes stored view
  | item :: items =>
    if item.isCreate then c.flushes stored (c.acted view item) && flushesHold (c.acted view item) (c.acted view item) items
    else flushesHold stored (c.acted view item) items

end Pipeline

/-! ## The calls -/

/-- `SESSION_TTL_SECONDS`. -/
def sessionTtlSeconds : ℕ := 30 * 60

/-- The sessions behind an upload. -/
def Sessions.replace (s : Sessions) (session : ImportSession) (now : ℕ)
    (fresh : session.token ∉ s.rows.map ImportSession.token) : Sessions where
  rows := (s.rows.filter fun r => r.userId != session.userId && decide (now ≤ r.expiresAt)) ++ [session]
  unique := by
    rw [List.map_append]
    refine List.nodup_append.2 ⟨s.unique.sublist (List.filter_sublist.map _), List.nodup_singleton _, ?_⟩
    intro a ha b hb
    rw [List.mem_singleton.1 hb]
    rintro rfl
    exact fresh ((List.filter_sublist.map _).subset ha)

namespace ImportSystem

/-- `start_import`: the preview, and the system with the session stored under a new token. -/
def startImport (c : Pipeline) (readings : Readings) (s : ImportSystem) (token : String) (userId : ℕ) (mode : ImportMode)
    (rows : List ParsedRow) (now : ℕ) (fresh : token ∉ s.sessions.rows.map ImportSession.token) :
    Result (List Item × ImportSystem) :=
  if rows = [] then .error (.invalid "The workbook has no data rows." [("file", "No data rows")])
  else do
    let preview ← c.validateRows readings mode [] s.records rows
    return (preview, { s with sessions := s.sessions.replace ⟨token, userId, mode, rows, now + sessionTtlSeconds⟩ now fresh })

/-- `confirm_import`, from its claim to its end. -/
def confirmImport (c : Pipeline) (readings : Readings) (s : ImportSystem) (token : String) (userId now : ℕ) : ImportSystem :=
  run (step c readings) s [.confirm token userId, .advance s.calls.nextId now, .advance s.calls.nextId now]

/-- A confirmation completes, performs the actions of the preview, and touches nothing else. -/
structure Truthful (c : Pipeline) (preview : List Item) (before after : ImportSystem) : Prop where
  completes : ∃ job, after.jobs = before.jobs ++ [job] ∧ job.status = .completed
  performs : Performs c before.records preview after.records
  created : after.records.values.length = before.records.values.length + preview.countP Item.isCreate
  untouched : ∀ id row, before.records.get? id = some row → id ∉ preview.filterMap Item.updateId? →
    after.records.get? id = some row

end ImportSystem

/-! ## What a preview has checked -/

/-- Each row was accepted at the records as the preview had them. -/
inductive Previewed (c : Pipeline) : Records → List Item → Prop
  | nil (view : Records) : Previewed c view []
  | create {view : Records} {data : Data} {row : RecordRow} {items : List Item} :
    c.revise true view Pipeline.blank data = .ok row → Previewed c view items → Previewed c view (.create data :: items)
  | update {view : Records} {data : Data} {id : ℕ} {row revised : RecordRow} {items : List Item} :
    c.matchExisting view data = some (id, row) → c.revise false view row (c.updates data) = .ok revised →
      Previewed c (view.modify id fun _ => revised) items → Previewed c view (.update data id :: items)
  | skip {view : Records} {id : ℕ} {items : List Item} : Previewed c view items → Previewed c view (.skip id :: items)

section
variable {c : Collection} {readings : Readings} {mode : ImportMode}

theorem previewed_cons {view next : Records} {data : Data} {item : Item} {items : List Item}
    (h : c.itemOf mode view data = .ok (item, next)) (hclean : item.isError = false) (hitems : Previewed c.toPipeline next items) :
    Previewed c.toPipeline view (item :: items) := by
  unfold Pipeline.itemOf at h
  split at h
  next id row hmatch =>
    split at h
    · cases h
      exact .skip hitems
    · split at h
      next revised hrevised =>
        cases h
        exact .update hmatch hrevised hitems
      · obtain ⟨item', hitem, h⟩ := Checks.bind_eq_ok.1 h
        cases h
        rw [of_caught hitem] at hclean
        cases hclean
  · split at h
    next row hrow =>
      cases h
      exact .create hrow hitems
    · obtain ⟨item', hitem, h⟩ := Checks.bind_eq_ok.1 h
      cases h
      rw [of_caught hitem] at hclean
      cases hclean

theorem previewed_validateRows {rows : List ParsedRow} : ∀ {seen : List (String × ℕ)} {view : Records} {preview : List Item},
    c.validateRows readings mode seen view rows = .ok preview → preview.any Item.isError = false →
    Previewed c.toPipeline view preview := by
  induction rows with
  | nil =>
    intro seen view preview h _
    cases h
    exact .nil view
  | cons row rows ih =>
    intro seen view preview h hclean
    obtain ⟨data, item, next, rest, -, rfl, hitem, -, hrest⟩ := validateRows_cons h hclean
    rw [List.any_cons, Bool.or_eq_false_iff] at hclean
    exact previewed_cons hitem hclean.1 (ih hrest hclean.2)

end

/-! ## The batch against its preview -/

/-- The second has the records of the first, and then its own. -/
def Extends (view t : Records) : Prop := ∃ more, t.rows = view.rows ++ more

namespace Extends
variable {c : Pipeline} {view t : Records} {data : Data} {id : ℕ} {row : RecordRow}

theorem refl (view : Records) : Extends view view := ⟨[], (List.append_nil _).symm⟩

theorem insert (h : Extends view t) (row : RecordRow) : Extends view (t.insert row) := by
  obtain ⟨more, hmore⟩ := h
  refine ⟨more ++ [(t.nextId, row)], ?_⟩
  show t.rows ++ [(t.nextId, row)] = view.rows ++ (more ++ [(t.nextId, row)])
  rw [hmore, List.append_assoc]

theorem modify (h : Extends view t) (id : ℕ) (f : RecordRow → RecordRow) : Extends (view.modify id f) (t.modify id f) := by
  obtain ⟨more, hmore⟩ := h
  refine ⟨more.map (Table.modifyRow id f), ?_⟩
  show t.rows.map (Table.modifyRow id f) = view.rows.map (Table.modifyRow id f) ++ more.map (Table.modifyRow id f)
  rw [hmore, List.map_append]

theorem matchExisting (h : Extends view t) (hmatch : c.matchExisting view data = some (id, row)) :
    c.matchExisting t data = some (id, row) := by
  obtain ⟨more, hmore⟩ := h
  rw [Pipeline.matchExisting, Option.ite_none_right_eq_some] at hmatch ⊢
  refine ⟨hmatch.1, ?_⟩
  rw [hmore, List.find?_append, hmatch.2, Option.some_or]

end Extends

/-- A match is the record of its own key. -/
theorem Pipeline.recordOf_of_match {c : Pipeline} {records : Records} {data : Data} {id : ℕ} {row : RecordRow}
    (h : c.matchExisting records data = some (id, row)) : c.recordOf records row = some row := by
  have hkeys : ∀ key ∈ c.module.matchKey, row.attrs (c.attrOf key) = data.lookup key :=
    fun _ hkey => attrs_of_isMatch (matchExisting_eq_some h).2 hkey
  have hmates : (fun r : ℕ × RecordRow => c.isMatch data r.2) = fun r => !r.2.deleted &&
      c.module.matchKey.all fun key => decide (r.2.attrs (c.attrOf key) = row.attrs (c.attrOf key)) := by
    funext r
    refine congrArg _ (Bool.eq_iff_iff.2 ?_)
    rw [List.all_eq_true, List.all_eq_true]
    exact forall₂_congr fun key hkey => by rw [hkeys key hkey]
  rw [matchExisting, Option.ite_none_right_eq_some, hmates] at h
  rw [recordOf, h.2, Option.map_some]

theorem Pipeline.acted_create {c : Pipeline} {records : Records} {data : Data} {row : RecordRow}
    (h : c.revise true records blank data = .ok row) : c.acted records (.create data) = records.insert row := by
  simp only [acted, h]

theorem Pipeline.acted_update {c : Pipeline} {records : Records} {data : Data} {id : ℕ} {row revised : RecordRow}
    (hrow : records.get? id = some row) (h : c.revise false records row (c.updates data) = .ok revised) :
    c.acted records (.update data id) = records.modify id fun _ => revised := by
  refine Table.modify_congr hrow ?_
  rw [h]

section
variable {c : LocalCollection} {view : Records} {items : List Item}

/-- A batch goes through where its flushes do, and then it is performed as previewed. -/
theorem applyItems_previewed (h : Previewed c.toPipeline view items) : ∀ {batch : Pipeline.Batch}, Extends view batch.view →
    ((∃ next, c.applyItems batch items = .ok next ∧ c.flushes next.stored next.view = true) ↔
      c.flushesHold batch.stored batch.view items = true) ∧
    ∀ next, c.applyItems batch items = .ok next → Performs c.toPipeline batch.view items next.view := by
  induction h with
  | nil view =>
    intro batch _
    refine ⟨⟨?_, fun hflushes => ⟨batch, rfl, hflushes⟩⟩, ?_⟩
    · rintro ⟨next, ⟨⟩, hflushes⟩
      exact hflushes
    · rintro next ⟨⟩
      exact .nil _
  | @create view data row items hrow _ ih =>
    intro batch hext
    have hrow' : c.revise true batch.view Pipeline.blank data = .ok row := (c.createApart _ _ _).trans hrow
    have hnext : Extends view (batch.view.insert row) := hext.insert row
    obtain ⟨hiff, hperforms⟩ := @ih ⟨batch.view.insert row, batch.view.insert row⟩ hnext
    simp only [Pipeline.applyItems, Pipeline.applyItem, hrow', Pipeline.flushesHold, Pipeline.acted_create hrow', Item.isCreate,
      if_true, Bool.and_eq_true]
    by_cases hflushes : c.flushes batch.stored (batch.view.insert row) = true
    · simp only [if_pos hflushes]
      refine ⟨?_, fun next happly => .create hrow' (hperforms next happly)⟩
      rw [hiff, and_iff_right hflushes]
    · simp only [if_neg hflushes]
      refine ⟨⟨?_, fun hhold => absurd hhold.1 hflushes⟩, ?_⟩
      · rintro ⟨next, ⟨⟩, _⟩
      · rintro next ⟨⟩
  | @update view data id row revised items hmatch hrevised _ ih =>
    intro batch hext
    have hmatch' : c.matchExisting batch.view data = some (id, row) := hext.matchExisting hmatch
    have hget : batch.view.get? id = some row := (Pipeline.matchExisting_eq_some hmatch').1
    have hrevised' : c.revise false batch.view row (c.updates data) = .ok revised :=
      (c.updateApart _ _ _ _ (Pipeline.recordOf_of_match hmatch') (Pipeline.recordOf_of_match hmatch)).trans hrevised
    obtain ⟨hiff, hperforms⟩ := @ih ⟨batch.stored, batch.view.modify id fun _ => revised⟩ (hext.modify id _)
    simp only [Pipeline.applyItems, Pipeline.applyItem, hmatch', hrevised', Pipeline.flushesHold,
      Pipeline.acted_update hget hrevised', Item.isCreate, Bool.false_eq_true, if_false]
    exact ⟨hiff, fun next happly => .update hget hrevised' (hperforms next happly)⟩
  | skip _ ih =>
    intro batch hext
    obtain ⟨hiff, hperforms⟩ := @ih batch hext
    exact ⟨hiff, fun next happly => .skip (hperforms next happly)⟩

end

namespace Performs
variable {c : Pipeline} {t after : Records} {items : List Item}

theorem untouched (h : Performs c t items after) : ∀ id row, t.get? id = some row → id ∉ items.filterMap Item.updateId? →
    after.get? id = some row := by
  induction h with
  | nil => exact fun id row hrow _ => hrow
  | create _ _ ih => exact fun id row hrow hid => ih id row (Table.get?_insert_of_some hrow) hid
  | @update t after data named old revised items _ _ _ ih =>
    intro id row hrow hid
    have hne : id ≠ named ∧ id ∉ items.filterMap Item.updateId? := not_or.1 fun h => hid (List.mem_cons.2 h)
    exact ih id row ((Table.get?_modify_of_ne _ hne.1).trans hrow) hne.2
  | skip _ ih => exact ih

theorem created (h : Performs c t items after) :
    after.values.length = t.values.length + items.countP Item.isCreate := by
  induction h with
  | nil => rfl
  | create _ _ ih =>
    rw [ih, Table.values_insert, List.length_append, List.length_singleton, List.countP_cons_of_pos rfl]
    omega
  | update _ _ _ ih =>
    rw [ih, List.countP_cons_of_neg Bool.false_ne_true, Table.values, Table.values, List.length_map, List.length_map,
      Table.modify, List.length_map]
  | skip _ ih => rw [ih, List.countP_cons_of_neg Bool.false_ne_true]

end Performs

/-! ## The confirmation -/

/-- The user finds the session again until it expires. -/
theorem Sessions.usable_replace {s : Sessions} {session : ImportSession} {now later : ℕ}
    (fresh : session.token ∉ s.rows.map ImportSession.token) (hlater : later < session.expiresAt) :
    (s.replace session now fresh).usable? session.token session.userId later = some session := by
  have hold : ∀ r ∈ s.rows.filter fun r => r.userId != session.userId && decide (now ≤ r.expiresAt),
      (r.token == session.token && r.userId == session.userId && decide (later < r.expiresAt)) = false := by
    intro r hr
    have hne : r.token ≠ session.token := fun heq => fresh (heq ▸ List.mem_map_of_mem (List.mem_filter.1 hr).1)
    rw [beq_eq_false_iff_ne.2 hne]
    rfl
  rw [usable?, replace, List.find?_append, List.find?_eq_none.2 fun r hr => Bool.eq_false_iff.1 (hold r hr), Option.none_or,
    List.find?_singleton, if_pos]
  simp only [BEq.rfl, Bool.and_self, Bool.true_and, decide_eq_true_eq]
  exact hlater

namespace ImportSystem
variable {c : Pipeline} {readings : Readings} {s : ImportSystem} {token : String} {userId now : ℕ} {session : ImportSession}

theorem confirmImport_spec (h : s.sessions.usable? token userId now = some session) :
    (s.confirmImport c readings token userId now).records = (c.confirmBatch readings session s.records).2.1 ∧
      (s.confirmImport c readings token userId now).jobs = s.jobs ++ (c.confirmBatch readings session s.records).2.2.toList := by
  have hclaims : (s.calls.insert (.claims token userId)).get? s.calls.nextId = some (.claims token userId) :=
    Table.get?_insert_self _ _
  have hconfirms : ((s.calls.insert (.claims token userId)).modify s.calls.nextId fun _ => .confirms session).get? s.calls.nextId =
      some (.confirms session) := by
    rw [Table.get?_modify_self, hclaims, Option.map_some]
  simp only [confirmImport, run, List.foldl_cons, List.foldl_nil, step, hclaims, advance, h, goTo, leave, hconfirms, and_self]

end ImportSystem

section
variable {c : LocalCollection} {readings : Readings} {session : ImportSession} {records : Records} {preview : List Item}

/-- A batch is completed where its flushes hold, and then it is performed. -/
theorem confirmBatch_previewed (hmode : session.mode ≠ .validateOnly)
    (hpreview : c.validateRows readings session.mode [] records session.rows = .ok preview)
    (hclean : preview.any Item.isError = false) :
    ((∃ job, (c.confirmBatch readings session records).2.2 = some job ∧ job.status = .completed) ↔
      c.flushesHold records records preview = true) ∧
    ((∃ job, (c.confirmBatch readings session records).2.2 = some job ∧ job.status = .completed) →
      Performs c.toPipeline records preview (c.confirmBatch readings session records).2.1) := by
  obtain ⟨hiff, hperforms⟩ :=
    @applyItems_previewed c _ _ (previewed_validateRows hpreview hclean) ⟨records, records⟩ (.refl records)
  rw [← hiff]
  simp only [Pipeline.confirmBatch, if_neg hmode, hpreview, hclean, Bool.false_eq_true, if_false]
  split
  next e herror =>
    have hnever : ¬∃ job, (if isValidation e then none else some (failedJob session (errorMessage e))) = some job ∧
        job.status = .completed := by
      rintro ⟨job, hjob, hcompleted⟩
      split at hjob
      · cases hjob
      · cases hjob
        cases hcompleted
    refine ⟨⟨fun hcompleted => absurd hcompleted hnever, ?_⟩, fun hcompleted => absurd hcompleted hnever⟩
    rintro ⟨next, hnext, _⟩
    rw [herror] at hnext
    cases hnext
  next batch happly =>
    split
    next hflushes =>
      exact ⟨⟨fun _ => ⟨batch, happly, hflushes⟩, fun _ => ⟨_, rfl, rfl⟩⟩, fun _ => hperforms batch happly⟩
    next hflushes =>
      refine ⟨⟨?_, ?_⟩, ?_⟩
      · rintro ⟨job, ⟨⟩, ⟨⟩⟩
      · rintro ⟨next, hnext, hholds⟩
        rw [happly] at hnext
        cases hnext
        exact absurd hholds hflushes
      · rintro ⟨job, ⟨⟩, ⟨⟩⟩

end

/-- **A preview without errors tells the truth exactly where the table is in order behind each statement of the batch**: no
`CREATE` or `UPDATE`, normalised, meets a live record with one of its unique values. -/
theorem ImportSystem.preview_truthful_iff {c : LocalCollection} {readings : Readings} {s s' : ImportSystem} {token : String}
    {userId now later : ℕ} {mode : ImportMode} {rows : List ParsedRow} {preview : List Item}
    (fresh : token ∉ s.sessions.rows.map ImportSession.token)
    (hstart : s.startImport c.toPipeline readings token userId mode rows now fresh = .ok (preview, s'))
    (hmode : mode ≠ .validateOnly) (hclean : preview.any Item.isError = false) (hlater : later < now + sessionTtlSeconds) :
    Truthful c.toPipeline preview s' (s'.confirmImport c.toPipeline readings token userId later) ↔
      c.flushesHold s.records s.records preview = true := by
  unfold startImport at hstart
  split at hstart
  · cases hstart
  obtain ⟨preview', hpreview, hstart⟩ := Checks.bind_eq_ok.1 hstart
  cases hstart
  obtain ⟨hrecords, hjobs⟩ := @confirmImport_spec c.toPipeline readings
    { s with sessions := s.sessions.replace ⟨token, userId, mode, rows, now + sessionTtlSeconds⟩ now fresh } _ _ _ _
    (Sessions.usable_replace fresh hlater)
  obtain ⟨hiff, hperforms⟩ := @confirmBatch_previewed c readings ⟨token, userId, mode, rows, now + sessionTtlSeconds⟩ s.records
    preview hmode hpreview hclean
  rw [← hiff]
  constructor
  · rintro ⟨⟨job, hjob, hcompleted⟩, -, -, -⟩
    rw [hjobs] at hjob
    have hone := List.append_cancel_left hjob
    exact ⟨job, Option.toList_eq_singleton_iff.1 hone, hcompleted⟩
  · intro hcompleted
    have hdone := hperforms hcompleted
    rw [← hrecords] at hdone
    refine ⟨?_, hdone, hdone.created, hdone.untouched⟩
    obtain ⟨job, hjob, hcompleted⟩ := hcompleted
    refine ⟨job, ?_, hcompleted⟩
    rw [hjobs, hjob, Option.toList_some]

/-! ## The capacity units -/

def capacityUnits : ImportModule :=
  ⟨"capacityUnits", 1, ["code"], [⟨"code", .text, false⟩, ⟨"name", .text, true⟩, ⟨"status", .enum, true⟩], []⟩

/-- `_capacity_unit_transform`. -/
def capacityUnitTransform (e : String × Value) : Value :=
  match e with
  | ("code", .text s) => .text (upper (strip s))
  | ("name", .text s) => .text (strip s)
  | (_, value) => value

def unitPipeline : Pipeline where
  module := capacityUnits
  fields := [("code", "code"), ("name", "name"), ("status", "status")]
  transform := fun data => .ok (data.map fun e => (e.1, capacityUnitTransform e))
  schema := fun _ data => .ok (data.map fun e => (e.1, some e.2))
  required := ["code", "name"]
  convert := fun _ value => .ok value
  validateData := fun _ row _ => .ok row
  constraint := fun records => decide (((records.values.filter fun r => !r.deleted).map fun r => r.attrs "code").Nodup)

theorem unitPipeline_matchFixed : ∀ key ∈ unitPipeline.module.matchKey, unitPipeline.module.mayUpdate key = false := by
  decide

theorem unitPipeline_keeps (records : Records) (row : RecordRow) (data : Data) (revised : RecordRow)
    (h : unitPipeline.revise false records row data = .ok revised)
    (hnone : ∀ key ∈ unitPipeline.module.matchKey, data.lookup key = none) : SameKey unitPipeline row revised := by
  refine Pipeline.sameKey_of_revise (by decide) ?_ ?_ h hnone
  · rintro transformed payload key ⟨⟩ ⟨⟩ hkey
    rw [List.map_map]
    exact lookup_map_some hkey
  · rintro applied payload ⟨⟩
    rfl

def units : LocalCollection where
  toCollection := ⟨unitPipeline, unitPipeline_matchFixed, unitPipeline_keeps⟩
  createApart := fun _ _ _ => rfl
  updateApart := fun _ _ _ _ _ _ => rfl

/-- No session, and the unit `KG`. -/
def unitSystem : ImportSystem := .start ⟨[], .nil⟩ (Table.empty.insert (direction "KG" "Kilograms")) []

namespace ImportSystem

theorem unitSystem_fresh : "t1" ∉ unitSystem.sessions.rows.map ImportSession.token := List.not_mem_nil

/-- The system with some rows uploaded. -/
def uploaded (rows : List ParsedRow) : ImportSystem :=
  { unitSystem with
    sessions := unitSystem.sessions.replace ⟨"t1", 7, .createAndUpdate, rows, 0 + sessionTtlSeconds⟩ 0 unitSystem_fresh }

/-- One new unit, and a new name for `KG`. -/
theorem preview_truthful_newUnit :
    Truthful unitPipeline [.create [("code", .text "ctn"), ("name", .text "Cartons")],
        .update [("code", .text "KG"), ("name", .text "Kilos")] 1]
      (uploaded [directionLine 2 "ctn" "Cartons", directionLine 3 "KG" "Kilos"])
      ((uploaded [directionLine 2 "ctn" "Cartons", directionLine 3 "KG" "Kilos"]).confirmImport unitPipeline plainReadings
        "t1" 7 60) := by
  have htruthful := @preview_truthful_iff units plainReadings unitSystem
    (uploaded [directionLine 2 "ctn" "Cartons", directionLine 3 "KG" "Kilos"]) "t1" 7 0 60 .createAndUpdate
    [directionLine 2 "ctn" "Cartons", directionLine 3 "KG" "Kilos"]
    [.create [("code", .text "ctn"), ("name", .text "Cartons")], .update [("code", .text "KG"), ("name", .text "Kilos")] 1]
    unitSystem_fresh rfl (by decide) (by decide) (by decide)
  exact htruthful.2 (by decide +kernel)

/-- The unit `kg` is previewed as a new one beside `KG`; its confirmation stores nothing. -/
theorem lower_case_unit_refused :
    ¬∀ (c : LocalCollection) (readings : Readings) (s s' : ImportSystem) (token : String) (userId now later : ℕ) (mode : ImportMode)
        (rows : List ParsedRow) (preview : List Item) (fresh : token ∉ s.sessions.rows.map ImportSession.token),
      s.startImport c.toPipeline readings token userId mode rows now fresh = .ok (preview, s') → mode ≠ .validateOnly →
        preview.any Item.isError = false → later < now + sessionTtlSeconds →
        Truthful c.toPipeline preview s' (s'.confirmImport c.toPipeline readings token userId later) := by
  intro h
  have htruthful := h units plainReadings unitSystem (uploaded [directionLine 2 "kg" "Kilograms"]) "t1" 7 0 60 .createAndUpdate
    [directionLine 2 "kg" "Kilograms"] [.create [("code", .text "kg"), ("name", .text "Kilograms")]] unitSystem_fresh rfl
    (by decide) (by decide) (by decide)
  obtain ⟨job, hjob, -⟩ := htruthful.completes
  have hnone : ((uploaded [directionLine 2 "kg" "Kilograms"]).confirmImport unitPipeline plainReadings "t1" 7 60).jobs = [] := by
    decide +kernel
  exact List.cons_ne_nil job [] (hnone.symm.trans hjob).symm

end ImportSystem
end LcsSystem.ExcelIo
