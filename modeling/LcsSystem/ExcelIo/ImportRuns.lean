import LcsSystem.Lib.Pairings
import LcsSystem.ExcelIo.Imports
import LcsSystem.ExcelIo.Workbooks

/-!
# What a confirmed import has written

Rows of one workbook with the same match key are told apart by their identifier, which is the key without the slashes and
blanks around it: where nothing is left of it, two rows may revise the same record, the later over the earlier, and the
job counts both. Otherwise a batch is applied row by row or not at all.
-/

namespace LcsSystem.ExcelIo
open Relational Transition

/-! ## Matches -/

namespace Pipeline
variable {c : Pipeline} {records : Records} {data : Data} {id : ℕ} {row : RecordRow}

theorem matchExisting_eq_some (h : c.matchExisting records data = some (id, row)) :
    records.get? id = some row ∧ c.isMatch data row = true := by
  rw [matchExisting, Option.ite_none_right_eq_some] at h
  have hmatch := List.find?_some h.2
  exact ⟨Table.get?_eq_some.2 (List.mem_of_find?_eq_some h.2), hmatch⟩

theorem attrs_of_isMatch (h : c.isMatch data row = true) {key : String} (hkey : key ∈ c.module.matchKey) :
    row.attrs (c.attrOf key) = data.lookup key := by
  rw [isMatch, Bool.and_eq_true, List.all_eq_true] at h
  simpa using h.2 key hkey

theorem isMatch_congr {other : RecordRow} (h : SameKey c row other) : c.isMatch data other = c.isMatch data row := by
  rw [isMatch, isMatch, h.1]
  refine congrArg _ (Bool.eq_iff_iff.2 ?_)
  rw [List.all_eq_true, List.all_eq_true]
  exact forall₂_congr fun key hkey => by rw [h.2 key hkey]

/-- Rows that name one record have one identifier. -/
theorem identifier_eq {readings : Readings} {other : Data} {row' : RecordRow} (h : c.matchExisting records data = some (id, row))
    (h' : c.matchExisting records other = some (id, row')) :
    c.module.identifier readings data = c.module.identifier readings other := by
  obtain ⟨hrow, hmatch⟩ := matchExisting_eq_some h
  obtain ⟨hrow', hmatch'⟩ := matchExisting_eq_some h'
  obtain rfl : row = row' := Option.some.inj (hrow.symm.trans hrow')
  have hkeys : ∀ key ∈ c.module.matchKey, data.lookup key = other.lookup key :=
    fun key hkey => (attrs_of_isMatch hmatch hkey).symm.trans (attrs_of_isMatch hmatch' hkey)
  rw [ImportModule.identifier, ImportModule.identifier,
    List.map_congr_left fun key hkey => by rw [hkeys key hkey]]

end Pipeline

theorem SameKey.refl (c : Pipeline) (row : RecordRow) : SameKey c row row := ⟨rfl, fun _ _ => rfl⟩

theorem SameKey.trans {c : Pipeline} {a b d : RecordRow} (h : SameKey c a b) (h' : SameKey c b d) : SameKey c a d :=
  ⟨h'.1.trans h.1, fun key hkey => (h'.2 key hkey).trans (h.2 key hkey)⟩

/-- An import changes no match key. -/
theorem Collection.sameKey_revise (c : Collection) {records : Records} {row revised : RecordRow} {data : Data}
    (h : c.revise false records row (c.updates data) = .ok revised) : SameKey c.toPipeline row revised := by
  refine c.keeps _ _ _ _ h fun key hkey => ?_
  rw [Pipeline.updates, List.lookup_eq_none_iff]
  intro e he
  obtain ⟨_, hupdate⟩ := List.mem_filter.1 he
  simp only [bne_iff_ne, ne_eq]
  rintro rfl
  rw [c.matchFixed _ hkey] at hupdate
  cases hupdate

theorem Pipeline.matchExisting_insert {c : Pipeline} {records : Records} {data : Data} {row : RecordRow} {found : ℕ × RecordRow}
    (h : c.matchExisting records data = some found) : c.matchExisting (records.insert row) data = some found := by
  rw [Pipeline.matchExisting, Option.ite_none_right_eq_some] at h ⊢
  refine ⟨h.1, ?_⟩
  rw [Table.insert, List.find?_append, h.2, Option.some_or]

/-- A revision keeps what a row matches. -/
theorem Pipeline.matchExisting_modify {c : Pipeline} {records : Records} {row revised : RecordRow} {id : ℕ}
    (hrow : records.get? id = some row) (hkey : SameKey c row revised) (data : Data) :
    (c.matchExisting (records.modify id fun _ => revised) data).map Prod.fst = (c.matchExisting records data).map Prod.fst := by
  have hmatch : ∀ r ∈ records.rows, c.isMatch data (Table.modifyRow id (fun _ => revised) r).2 = c.isMatch data r.2 := by
    rintro ⟨i, r⟩ hr
    by_cases hi : i = id
    · subst hi
      obtain rfl : row = r := Option.some.inj (hrow.symm.trans (Table.get?_eq_some.2 hr))
      rw [Table.modifyRow, if_pos rfl]
      exact Pipeline.isMatch_congr hkey
    · rw [Table.modifyRow, if_neg hi]
  unfold Pipeline.matchExisting
  split
  · rw [Table.modify, List.find?_map, Option.map_map]
    have : (fun r => c.isMatch data r.2) ∘ Table.modifyRow id (fun _ => revised) =
        fun r => c.isMatch data (Table.modifyRow id (fun _ => revised) r).2 := rfl
    rw [this, List.find?_congr hmatch]
    cases records.rows.find? fun r => c.isMatch data r.2 with
    | none => rfl
    | some r => exact congrArg some (Table.modifyRow_fst _ _ _)
  · rfl

/-! ## The preview -/

theorem of_caught {e : Error} {item : Item} (h : caught e = .ok item) : item.isError = true := by
  unfold caught at h
  split at h
  · cases h
    rfl
  · cases h

/-- What an item says about the data it is made of. -/
structure Describes (c : Pipeline) (mode : ImportMode) (records : Records) (data : Data) (item : Item) : Prop where
  updated : ∀ id ∈ item.updateId?, item = .update data id ∧ mode ≠ .createOnly ∧
    (c.matchExisting records data).map Prod.fst = some id
  skipped : ∀ id ∈ item.skipId?, (c.matchExisting records data).map Prod.fst = some id

/-- Both have the same record for each row. -/
def SameMatches (c : Pipeline) (records view : Records) : Prop :=
  ∀ data, (c.matchExisting view data).map Prod.fst = (c.matchExisting records data).map Prod.fst

section
variable {c : Collection} {readings : Readings} {mode : ImportMode} {records view next : Records}

theorem describes_itemOf {data : Data} {item : Item} (hview : SameMatches c.toPipeline records view)
    (h : c.itemOf mode view data = .ok (item, next)) (hclean : item.isError = false) :
    Describes c.toPipeline mode records data item ∧ SameMatches c.toPipeline records next := by
  unfold Pipeline.itemOf at h
  split at h
  next id row hmatch =>
    have hid : (c.matchExisting records data).map Prod.fst = some id := by rw [← hview data, hmatch, Option.map_some]
    split at h
    · cases h
      refine ⟨⟨?_, ?_⟩, hview⟩
      · rintro i ⟨⟩
      · rintro i ⟨⟩
        exact hid
    next hmode =>
      split at h
      next revised hrevised =>
        cases h
        refine ⟨⟨?_, ?_⟩, ?_⟩
        · rintro i ⟨⟩
          exact ⟨rfl, hmode, hid⟩
        · rintro i ⟨⟩
        · intro other
          rw [Pipeline.matchExisting_modify (Pipeline.matchExisting_eq_some hmatch).1 (c.sameKey_revise hrevised)]
          exact hview other
      · obtain ⟨item', hitem, h⟩ := Checks.bind_eq_ok.1 h
        cases h
        rw [of_caught hitem] at hclean
        cases hclean
  next hmatch =>
    split at h
    · cases h
      refine ⟨⟨?_, ?_⟩, hview⟩
      · rintro i ⟨⟩
      · rintro i ⟨⟩
    · obtain ⟨item', hitem, h⟩ := Checks.bind_eq_ok.1 h
      cases h
      rw [of_caught hitem] at hclean
      cases hclean

/-- The first row of a preview without errors. -/
theorem validateRows_cons {seen : List (String × ℕ)} {row : ParsedRow} {rows : List ParsedRow} {preview : List Item}
    (h : c.validateRows readings mode seen view (row :: rows) = .ok preview) (hclean : preview.any Item.isError = false) :
    ∃ data item next rest, rowData readings c.module row = .ok data ∧ preview = item :: rest ∧
      c.itemOf mode view data = .ok (item, next) ∧
      (c.identityOf readings row ≠ "" → seen.lookup (c.identityOf readings row) = none) ∧
      c.validateRows readings mode
        (if c.identityOf readings row = "" then seen else seen ++ [(c.identityOf readings row, row.excelRow)]) next rows = .ok rest := by
  unfold Pipeline.validateRows at h
  split at h
  next e he =>
    obtain ⟨item, hitem, h⟩ := Checks.bind_eq_ok.1 h
    obtain ⟨rest, hrest, h⟩ := Checks.bind_eq_ok.1 h
    cases h
    rw [List.any_cons, of_caught hitem] at hclean
    cases hclean
  next data hdata =>
    have hidentity : c.identityOf readings row = c.module.identifier readings data := by rw [Pipeline.identityOf, hdata]
    rw [hidentity]
    dsimp only at h
    split at h
    · obtain ⟨rest, hrest, h⟩ := Checks.bind_eq_ok.1 h
      cases h
      cases hclean
    next hseen =>
      obtain ⟨⟨item, next⟩, hitem, h⟩ := Checks.bind_eq_ok.1 h
      obtain ⟨rest, hrest, h⟩ := Checks.bind_eq_ok.1 h
      cases h
      refine ⟨data, item, next, rest, hdata, rfl, hitem, ?_, hrest⟩
      intro hne
      rwa [if_neg hne] at hseen

/-- A preview without errors goes row by row. -/
theorem describes_validateRows {rows : List ParsedRow} : ∀ {seen : List (String × ℕ)} {view : Records} {preview : List Item},
    SameMatches c.toPipeline records view → c.validateRows readings mode seen view rows = .ok preview →
    preview.any Item.isError = false →
    List.Forall₂ (fun row item => ∃ data, rowData readings c.module row = .ok data ∧
      Describes c.toPipeline mode records data item) rows preview := by
  induction rows with
  | nil =>
    intro seen view preview _ h _
    rw [Pipeline.validateRows] at h
    cases h
    exact .nil
  | cons row rows ih =>
    intro seen view preview hview h hclean
    obtain ⟨data, item, next, rest, hdata, rfl, hitem, -, hrest⟩ := validateRows_cons h hclean
    rw [List.any_cons, Bool.or_eq_false_iff] at hclean
    obtain ⟨hdescribes, hnext⟩ := describes_itemOf hview hitem hclean.1
    exact .cons ⟨data, hdata, hdescribes⟩ (ih hnext hrest hclean.2)

/-- No two rows of a preview without errors have one identifier. -/
theorem identities_apart {rows : List ParsedRow} : ∀ {seen : List (String × ℕ)} {view : Records} {preview : List Item},
    SameMatches c.toPipeline records view → c.validateRows readings mode seen view rows = .ok preview →
    preview.any Item.isError = false →
    (∀ row ∈ rows, c.identityOf readings row ≠ "" → seen.lookup (c.identityOf readings row) = none) ∧
      rows.Pairwise fun a b => c.identityOf readings a ≠ "" → c.identityOf readings b ≠ c.identityOf readings a := by
  induction rows with
  | nil =>
    intro seen view preview _ _ _
    exact ⟨fun row hrow => (List.not_mem_nil hrow).elim, .nil⟩
  | cons row rows ih =>
    intro seen view preview hview h hclean
    obtain ⟨data, item, next, rest, -, rfl, hitem, hseen, hrest⟩ := validateRows_cons h hclean
    rw [List.any_cons, Bool.or_eq_false_iff] at hclean
    obtain ⟨hnone, hpair⟩ := ih (describes_itemOf hview hitem hclean.1).2 hrest hclean.2
    refine ⟨?_, List.pairwise_cons.2 ⟨?_, hpair⟩⟩
    · intro other hother hne
      rcases List.mem_cons.1 hother with rfl | hother
      · exact hseen hne
      · have := hnone other hother hne
        by_cases hempty : c.identityOf readings row = ""
        · rwa [if_pos hempty] at this
        · rw [if_neg hempty, List.lookup_append, Option.or_eq_none_iff] at this
          exact this.1
    · intro other hother hne heq
      have := hnone other hother (heq ▸ hne)
      rw [if_neg hne, List.lookup_append, Option.or_eq_none_iff, heq, List.lookup_cons_self] at this
      cases this.2

theorem identityOf_eq {a b : ParsedRow} {id : ℕ} (ha : c.namedId readings records a = some id)
    (hb : c.namedId readings records b = some id) : c.identityOf readings a = c.identityOf readings b := by
  unfold Pipeline.namedId at ha hb
  unfold Pipeline.identityOf
  split at ha
  next data hdata =>
    split at hb
    next other hother =>
      obtain ⟨⟨_, row⟩, hrow, rfl⟩ := Option.map_eq_some_iff.1 ha
      obtain ⟨⟨_, row'⟩, hrow', hid⟩ := Option.map_eq_some_iff.1 hb
      cases hid
      exact Pipeline.identifier_eq hrow hrow'
    · cases hb
  · cases ha

theorem sameMatches_refl : SameMatches c.toPipeline records records := fun _ => rfl

/-- Where rows without an identifier name different records, all rows do. -/
theorem namedIds_nodup {rows : List ParsedRow} {preview : List Item}
    (h : c.validateRows readings mode [] records rows = .ok preview) (hclean : preview.any Item.isError = false)
    (hapart : c.NamesApart readings records rows) : (rows.filterMap (c.namedId readings records)).Nodup := by
  rw [List.Nodup, List.pairwise_filterMap]
  refine (hapart.and (identities_apart sameMatches_refl h hclean).2).imp ?_
  rintro a b ⟨hempty, hne⟩ id ha other hb rfl
  have heq := identityOf_eq ha hb
  by_cases hidentity : c.identityOf readings a = ""
  · rw [hempty hidentity (ha.trans hb.symm)] at ha
    cases ha
  · exact hne hidentity heq.symm

/-- The records that some items name, out of those that their rows name. -/
theorem filterMap_sublist {α β γ : Type*} {R : α → β → Prop} {f : α → Option γ} {g : β → Option γ} {xs : List α} {ys : List β}
    (h : List.Forall₂ R xs ys) (hR : ∀ a b, R a b → ∀ x ∈ g b, f a = some x) : (ys.filterMap g).Sublist (xs.filterMap f) := by
  induction h with
  | nil => exact .slnil
  | @cons a b xs ys hab _ ih =>
    rw [List.filterMap_cons, List.filterMap_cons]
    cases hg : g b with
    | none =>
      cases f a with
      | none => exact ih
      | some y => exact ih.cons y
    | some x =>
      rw [hR a b hab x hg]
      exact ih.cons_cons x

variable {rows : List ParsedRow} {preview : List Item}

theorem namedId_eq {row : ParsedRow} {data : Data} (h : rowData readings c.module row = .ok data) :
    c.namedId readings records row = (c.matchExisting records data).map Prod.fst := by
  rw [Pipeline.namedId, h]

theorem updateIds_nodup (h : c.validateRows readings mode [] records rows = .ok preview)
    (hclean : preview.any Item.isError = false) (hapart : c.NamesApart readings records rows) :
    (preview.filterMap Item.updateId?).Nodup := by
  refine (namedIds_nodup h hclean hapart).sublist (filterMap_sublist (describes_validateRows sameMatches_refl h hclean) ?_)
  rintro row item ⟨data, hdata, hitem⟩ id hid
  rw [namedId_eq hdata]
  exact (hitem.updated id hid).2.2

theorem skipIds_nodup (h : c.validateRows readings mode [] records rows = .ok preview)
    (hclean : preview.any Item.isError = false) (hapart : c.NamesApart readings records rows) :
    (preview.filterMap Item.skipId?).Nodup := by
  refine (namedIds_nodup h hclean hapart).sublist (filterMap_sublist (describes_validateRows sameMatches_refl h hclean) ?_)
  rintro row item ⟨data, hdata, hitem⟩ id hid
  rw [namedId_eq hdata]
  exact hitem.skipped id hid

/-- An `UPDATE` of a preview without errors names the record that its data matches. -/
theorem of_update_mem (h : c.validateRows readings mode [] records rows = .ok preview)
    (hclean : preview.any Item.isError = false) {data : Data} {id : ℕ} (hmem : Item.update data id ∈ preview) :
    mode ≠ .createOnly ∧ ∃ row, c.matchExisting records data = some (id, row) := by
  obtain ⟨row, -, other, -, hitem⟩ := Pairings.exists_of_forall₂ (describes_validateRows sameMatches_refl h hclean) hmem
  obtain ⟨heq, hmode, hmatch⟩ := hitem.updated id rfl
  cases heq
  obtain ⟨⟨_, old⟩, hold, rfl⟩ := Option.map_eq_some_iff.1 hmatch
  exact ⟨hmode, old, hold⟩

end

/-! ## The batch -/

/-- What the rows so far have left of the records before the batch. -/
structure Progress (c : Pipeline) (before : Records) (done : List Item) (t : Records) (created : List ℕ) : Prop where
  applied : AllApplied c ⟨.createAndUpdate, done, before, t, none⟩ created
  grown : ∀ id, t.get? id = none → before.get? id = none
  found : ∀ data id row, c.matchExisting before data = some (id, row) →
    (c.matchExisting t data).map Prod.fst = some id

namespace Progress
variable {c : Collection} {before t : Records} {done : List Item} {created : List ℕ}

theorem start : Progress c.toPipeline before [] before [] where
  applied := by
    refine ⟨.nil, ?_, .nil, ?_, ?_⟩
    · intro id
      simp only [List.not_mem_nil, false_iff, not_and]
      intro h
      rw [h]
      decide
    · rintro data id ⟨⟩
    · exact fun id row h _ => h
  grown := fun id h => h
  found := by
    intro data id row h
    rw [h, Option.map_some]

/-- A row that writes nothing. -/
theorem pass (h : Progress c.toPipeline before done t created) {item : Item} (hcreate : createData [item] = [])
    (hupdate : item.updateId? = none) : Progress c.toPipeline before (done ++ [item]) t created where
  applied := by
    refine ⟨h.applied.distinct, h.applied.fresh, ?_, ?_, ?_⟩
    · have := h.applied.made
      rwa [createData, List.filterMap_append, ← createData, ← createData, hcreate, List.append_nil]
    · intro data id hmem
      rcases List.mem_append.1 hmem with hmem | hmem
      · exact h.applied.revised data id hmem
      · rw [← List.mem_singleton.1 hmem] at hupdate
        cases hupdate
    · intro id row hrow hid
      refine h.applied.kept id row hrow fun hmem => hid ?_
      rw [List.filterMap_append]
      exact List.mem_append_left _ hmem
  grown := h.grown
  found := h.found

theorem create (h : Progress c.toPipeline before done t created) {data : Data} {row : RecordRow}
    (hrow : c.revise true t Pipeline.blank data = .ok row) :
    Progress c.toPipeline before (done ++ [.create data]) (t.insert row) (created ++ [t.nextId]) where
  applied := by
    have hlater : ∀ {id : ℕ} {r : RecordRow}, t.get? id = some r → (t.insert row).get? id = some r :=
      Table.get?_insert_of_some
    refine ⟨?_, ?_, ?_, ?_, ?_⟩
    · refine List.nodup_append.2 ⟨h.applied.distinct, List.nodup_singleton _, ?_⟩
      intro a ha b hb
      rw [List.mem_singleton.1 hb]
      rintro rfl
      have := ((h.applied.fresh _).1 ha).2
      simp only [Table.get?_nextId] at this
      cases this
    · intro id
      have := h.applied.fresh id
      rw [List.mem_append, List.mem_singleton, Table.get?_insert]
      by_cases hid : id = t.nextId
      · subst hid
        simp only [or_true, if_true, Option.isSome_some, and_true, true_iff]
        exact h.grown _ (Table.get?_nextId t)
      · rw [if_neg hid, or_iff_left hid, this]
    · rw [createData, List.filterMap_append]
      refine List.rel_append (h.applied.made.imp ?_) (.cons ⟨t, row, hrow, ?_⟩ .nil)
      · rintro data' id ⟨records, r, hr, hget⟩
        exact ⟨records, r, hr, hlater hget⟩
      · exact Table.get?_insert_self t row
    · intro data' id hmem
      rcases List.mem_append.1 hmem with hmem | hmem
      · obtain ⟨records, old, r, hold, hr, hget⟩ := h.applied.revised data' id hmem
        exact ⟨records, old, r, hold, hr, hlater hget⟩
      · cases List.mem_singleton.1 hmem
    · intro id r hr hid
      refine hlater (h.applied.kept id r hr fun hmem => hid ?_)
      rw [List.filterMap_append]
      exact List.mem_append_left _ hmem
  grown := by
    intro id hid
    rw [Table.get?_insert] at hid
    split at hid
    · cases hid
    · exact h.grown id hid
  found := by
    intro data' id r hr
    obtain ⟨⟨_, r'⟩, hr', rfl⟩ := Option.map_eq_some_iff.1 (h.found data' id r hr)
    rw [Pipeline.matchExisting_insert hr', Option.map_some]

/-- An `UPDATE` of a record that no earlier row has revised. -/
theorem update (h : Progress c.toPipeline before done t created) {data : Data} {id : ℕ} {old row revised : RecordRow}
    (hbefore : c.matchExisting before data = some (id, old)) (hnew : id ∉ done.filterMap Item.updateId?)
    (hfound : c.matchExisting t data = some (id, row)) (hrevised : c.revise false t row (c.updates data) = .ok revised) :
    Progress c.toPipeline before (done ++ [.update data id]) (t.modify id fun _ => revised) created where
  applied := by
    have hold : before.get? id = some old := (Pipeline.matchExisting_eq_some hbefore).1
    have hother : ∀ {i : ℕ}, i ≠ id → (t.modify id fun _ => revised).get? i = t.get? i := by
      exact Table.get?_modify_of_ne _
    have hget : t.get? id = some row := (Pipeline.matchExisting_eq_some hfound).1
    have hself : (t.modify id fun _ => revised).get? id = some revised := by
      rw [Table.get?_modify_self, hget, Option.map_some]
    obtain rfl : old = row := Option.some.inj ((h.applied.kept id old hold hnew).symm.trans hget)
    refine ⟨h.applied.distinct, ?_, ?_, ?_, ?_⟩
    · intro i
      rw [h.applied.fresh i]
      by_cases hi : i = id
      · subst hi
        simp only [hold, reduceCtorEq, false_and]
      · simp only [hother hi]
    · have hsame : createData (done ++ [.update data id]) = createData done := by
        rw [createData, List.filterMap_append]
        exact List.append_nil _
      rw [hsame, List.forall₂_iff_zip]
      refine ⟨h.applied.made.length_eq, ?_⟩
      intro data' i hmem
      obtain ⟨records, r, hr, hi⟩ := List.forall₂_zip h.applied.made hmem
      refine ⟨records, r, hr, (hother ?_).trans hi⟩
      rintro rfl
      have := ((h.applied.fresh i).1 (List.of_mem_zip hmem).2).1
      rw [hold] at this
      cases this
    · intro data' i hmem
      rcases List.mem_append.1 hmem with hdone | hmem
      · obtain ⟨records, old', r, hold', hr, hi⟩ := h.applied.revised data' i hdone
        refine ⟨records, old', r, hold', hr, (hother ?_).trans hi⟩
        rintro rfl
        exact hnew (List.mem_filterMap.2 ⟨_, hdone, rfl⟩)
      · cases List.mem_singleton.1 hmem
        exact ⟨t, old, revised, hold, hrevised, hself⟩
    · intro i r hr hi
      rw [List.filterMap_append, List.mem_append, not_or] at hi
      refine (hother ?_).trans (h.applied.kept i r hr hi.1)
      rintro rfl
      exact hi.2 List.mem_cons_self
  grown := by
    intro i hi
    rw [Table.get?_modify] at hi
    split at hi
    · rename_i heq
      subst heq
      exact h.grown _ (Option.map_eq_none_iff.1 hi)
    · exact h.grown i hi
  found := by
    intro data' i r hr
    rw [Pipeline.matchExisting_modify (Pipeline.matchExisting_eq_some hfound).1 (c.sameKey_revise hrevised)]
    exact h.found data' i r hr

/-- One row of a batch, at a record that no earlier row has revised. -/
theorem step {batch next : Pipeline.Batch} (h : Progress c.toPipeline before done batch.view created) {item : Item}
    (hitem : c.applyItem batch item = .ok next)
    (hmatch : ∀ data id, item = .update data id → ∃ row, c.matchExisting before data = some (id, row))
    (hnew : ∀ id ∈ item.updateId?, id ∉ done.filterMap Item.updateId?) :
    ∃ created', Progress c.toPipeline before (done ++ [item]) next.view created' := by
  cases item with
  | create data =>
    simp only [Pipeline.applyItem] at hitem
    split at hitem
    next row hrow =>
      split at hitem
      · cases hitem
        exact ⟨_, h.create hrow⟩
      · cases hitem
    · cases hitem
  | update data id =>
    obtain ⟨old, hold⟩ := hmatch data id rfl
    obtain ⟨⟨_, row⟩, hrow, rfl⟩ := Option.map_eq_some_iff.1 (h.found data id old hold)
    simp only [Pipeline.applyItem, hrow] at hitem
    split at hitem
    next revised hrevised =>
      cases hitem
      exact ⟨_, h.update hold (hnew _ rfl) hrow hrevised⟩
    · cases hitem
  | skip id =>
    cases hitem
    exact ⟨_, h.pass rfl rfl⟩
  | error messages =>
    cases hitem
    exact ⟨_, h.pass rfl rfl⟩

/-- All rows of a batch, no two of which revise one record. -/
theorem run {items : List Item} {next : Pipeline.Batch} : ∀ {done : List Item} {batch : Pipeline.Batch} {created : List ℕ},
    Progress c.toPipeline before done batch.view created → c.applyItems batch items = .ok next →
    (∀ data id, Item.update data id ∈ items → ∃ row, c.matchExisting before data = some (id, row)) →
    ((done ++ items).filterMap Item.updateId?).Nodup →
      ∃ created', Progress c.toPipeline before (done ++ items) next.view created' := by
  induction items with
  | nil =>
    intro done batch created h happly _ _
    cases happly
    rw [List.append_nil]
    exact ⟨created, h⟩
  | cons item items ih =>
    intro done batch created h happly hmatch hnodup
    simp only [Pipeline.applyItems] at happly
    split at happly
    next middle hitem =>
      have hnew : ∀ id ∈ item.updateId?, id ∉ done.filterMap Item.updateId? := by
        intro id hid hmem
        rw [List.filterMap_append] at hnodup
        exact (List.nodup_append.1 hnodup).2.2 id hmem id (List.mem_filterMap.2 ⟨item, List.mem_cons_self, hid⟩) rfl
      obtain ⟨created', h'⟩ := h.step hitem
        (fun data id hupdate => hmatch data id (hupdate ▸ List.mem_cons_self)) hnew
      have happend : done ++ item :: items = done ++ [item] ++ items := by rw [List.append_assoc, List.singleton_append]
      rw [happend] at hnodup ⊢
      exact ih h' happly (fun data id hmem => hmatch data id (List.mem_cons_of_mem _ hmem)) hnodup
    · cases happly

end Progress

section
variable {c : Collection} {readings : Readings} {session : ImportSession} {records : Records}

/-- What a confirmation reads and leaves. -/
def confirmationOf (c : Pipeline) (readings : Readings) (session : ImportSession) (records : Records) : Confirmation :=
  let result := c.confirmBatch readings session records
  ⟨session.mode, result.1, records, result.2.1, result.2.2⟩

theorem faithful_of_unchanged {e : Confirmation} (hsame : e.after = e.before)
    (hjob : ∀ job, e.job = some job → job.status ≠ .completed) : Faithful c.toPipeline e where
  atomic := fun job h hcompleted => absurd hcompleted (hjob job h)
  nothing := fun _ => hsame
  createOnly := by
    intro _ id row hrow
    rwa [hsame]

/-- A batch that is applied. -/
theorem faithful_of_applied {preview : List Item} {batch : Pipeline.Batch}
    (hpreview : c.validateRows readings session.mode [] records session.rows = .ok preview)
    (hclean : preview.any Item.isError = false) (happly : c.applyItems ⟨records, records⟩ preview = .ok batch)
    (hapart : c.NamesApart readings records session.rows) :
    Faithful c.toPipeline ⟨session.mode, preview, records, batch.view, some (recordJob session .completed preview none)⟩ := by
  have hnodup := updateIds_nodup hpreview hclean hapart
  obtain ⟨created, hprogress⟩ := Progress.start.run happly (fun data id hmem => (of_update_mem hpreview hclean hmem).2) hnodup
  have hall := hprogress.applied
  refine ⟨?_, ?_, ?_⟩
  · rintro job ⟨⟩ -
    refine ⟨created, ⟨hall.distinct, hall.fresh, hall.made, hall.revised, hall.kept⟩, ?_, ?_, ?_⟩
    · show preview.countP Item.isCreate = created.length
      rw [← hall.made.length_eq, List.nil_append, createData, List.length_filterMap_eq_countP]
      refine List.countP_congr ?_
      intro item _
      cases item <;> simp [Item.isCreate]
    · rw [hnodup.dedup]
      rfl
    · rw [(skipIds_nodup hpreview hclean hapart).dedup]
      rfl
  · intro h
    exact absurd rfl (h _ rfl)
  · intro hmode id row hrow
    refine hall.kept id row hrow fun hmem => ?_
    obtain ⟨item, hitem, hid⟩ := List.mem_filterMap.1 hmem
    cases item with
    | update data i =>
      exact (of_update_mem hpreview hclean hitem).1 hmode
    | _ => cases hid

theorem faithful_confirmBatch (hapart : c.NamesApart readings records session.rows) :
    Faithful c.toPipeline (confirmationOf c.toPipeline readings session records) := by
  unfold confirmationOf Pipeline.confirmBatch
  split
  · refine faithful_of_unchanged rfl ?_
    rintro job ⟨⟩
  · split
    · refine faithful_of_unchanged rfl ?_
      rintro job ⟨⟩ ⟨⟩
    next preview hpreview =>
      split
      · refine faithful_of_unchanged rfl ?_
        rintro job ⟨⟩ ⟨⟩
      next hclean =>
        split
        next e _ =>
          refine faithful_of_unchanged rfl ?_
          intro job hjob
          dsimp only at hjob
          split at hjob
          · cases hjob
          · cases hjob
            rintro ⟨⟩
        next batch happly =>
          split
          · exact faithful_of_applied hpreview (Bool.eq_false_iff.2 hclean) happly hapart
          · refine faithful_of_unchanged rfl ?_
            rintro job ⟨⟩ ⟨⟩

end

/-! ## Runs -/

theorem Sessions.of_usable {s : Sessions} {token : String} {userId now : ℕ} {session : ImportSession}
    (h : s.usable? token userId now = some session) : token ∈ s.rows.map ImportSession.token := by
  have hmem := List.mem_of_find?_eq_some h
  have hsel := List.find?_some h
  simp only [Bool.and_eq_true, beq_iff_eq] at hsel
  exact List.mem_map.2 ⟨session, hmem, hsel.1.1⟩

theorem Sessions.mem_remove {s : Sessions} {token other : String} (h : other ∈ (s.remove token).rows.map ImportSession.token) :
    other ≠ token ∧ other ∈ s.rows.map ImportSession.token := by
  obtain ⟨session, hsession, rfl⟩ := List.mem_map.1 h
  obtain ⟨hmem, hne⟩ := List.mem_filter.1 hsession
  exact ⟨by simpa using hne, List.mem_map.2 ⟨session, hmem, rfl⟩⟩

/-- A claimed token is not stored any more, and every confirmation so far is faithful. -/
structure Claims (c : Pipeline) (s : ImportSystem) : Prop where
  once : s.claimed.Nodup
  gone : ∀ token ∈ s.claimed, token ∉ s.sessions.rows.map ImportSession.token
  faithful : ∀ e ∈ s.log, Faithful c e

namespace Claims
variable {c : Collection} {readings : Readings} {s : ImportSystem}

/-- Tokens are deleted, nothing else is done to them. -/
theorem remove (h : Claims c.toPipeline s) (token : String) :
    ∀ other ∈ s.claimed, other ∉ (s.sessions.remove token).rows.map ImportSession.token :=
  fun other hother hmem => h.gone other hother (Sessions.mem_remove hmem).2

theorem advance (h : Claims c.toPipeline s) (call now : ℕ) {stage : Call} (hcall : s.calls.get? call = some stage)
    (hapart : s.Apart c.toPipeline readings (.advance call now)) :
    Claims c.toPipeline (s.advance c.toPipeline readings call now stage) := by
  cases stage with
  | claims token userId =>
    simp only [ImportSystem.advance]
    split
    next session husable =>
      have hstored := Sessions.of_usable husable
      refine ⟨?_, ?_, h.faithful⟩
      · refine List.nodup_append.2 ⟨h.once, List.nodup_singleton _, ?_⟩
        intro a ha b hb
        rw [List.mem_singleton.1 hb]
        rintro rfl
        exact h.gone a ha hstored
      · intro other hother hmem
        obtain ⟨hne, hmem⟩ := Sessions.mem_remove hmem
        rcases List.mem_append.1 hother with hother | hother
        · exact h.gone other hother hmem
        · exact hne (List.mem_singleton.1 hother)
    · exact ⟨h.once, h.gone, h.faithful⟩
  | confirms session =>
    refine ⟨h.once, h.gone, ?_⟩
    intro e he
    rcases List.mem_append.1 he with he | he
    · exact h.faithful e he
    · rw [List.mem_singleton.1 he]
      refine faithful_confirmBatch (hapart session ?_)
      rw [hcall]
      rfl
  | looks token userId =>
    simp only [ImportSystem.advance]
    split
    · exact ⟨h.once, h.gone, h.faithful⟩
    · exact ⟨h.once, h.gone, h.faithful⟩
  | deletes token => exact ⟨h.once, h.remove token, h.faithful⟩

/-- **Step lemma.** -/
theorem step (h : Claims c.toPipeline s) (a : ImportAction) (hapart : s.Apart c.toPipeline readings a) :
    Claims c.toPipeline (s.step c.toPipeline readings a) := by
  cases a with
  | advance call now =>
    simp only [ImportSystem.step]
    split
    next stage hcall => exact h.advance call now hcall hapart
    · exact h
  | confirm | cancel | write => exact ⟨h.once, h.gone, h.faithful⟩

end Claims

/-- The system with its stored sessions, before any call. -/
def ImportSystem.start (sessions : Sessions) (records : Records) (jobs : List ImportJob) : ImportSystem :=
  { sessions := sessions, records := records, jobs := jobs }

/-- **A confirmed import is applied as a whole or not at all**, once for each token, where no two rows of a batch without an
identifier name the same record. -/
theorem ImportSystem.confirmations_faithful {c : Collection} {readings : Readings} {sessions : Sessions} {records : Records}
    {jobs : List ImportJob} {as : List ImportAction}
    (hmeets : Meets (step c.toPipeline readings) (Apart c.toPipeline readings) (start sessions records jobs) as) :
    Sound c.toPipeline (run (step c.toPipeline readings) (start sessions records jobs) as) := by
  have hstart : Claims c.toPipeline (start sessions records jobs) := by
    refine ⟨.nil, ?_, ?_⟩
    · rintro token ⟨⟩
    · rintro e ⟨⟩
  have h := run_invariant_of_meets (Claims c.toPipeline) (fun _ a h hapart => h.step a hapart) hstart hmeets
  exact ⟨List.nodup_iff_count_le_one.1 h.once, h.faithful⟩

/-! ## The trade directions -/

theorem Pipeline.applyInput_deleted {c : Pipeline} {payload : Payload} {fields : List (String × String)} :
    ∀ {row revised : RecordRow}, c.applyInput payload fields row = .ok revised → revised.deleted = row.deleted := by
  induction fields with
  | nil =>
    intro row revised h
    cases h
    rfl
  | cons e fields ih =>
    intro row revised h
    simp only [applyInput] at h
    split at h
    · split at h
      · have hrest := ih h
        exact hrest
      · cases h
    · exact ih h

/-- Input sets only the attributes that it has a key for. -/
theorem Pipeline.applyInput_other {c : Pipeline} {payload : Payload} {attr : String} {fields : List (String × String)} :
    ∀ {row revised : RecordRow}, (∀ e ∈ fields, e.2 = attr → payload.lookup e.1 = none) →
      c.applyInput payload fields row = .ok revised → revised.attrs attr = row.attrs attr := by
  induction fields with
  | nil =>
    intro row revised _ h
    cases h
    rfl
  | cons e fields ih =>
    intro row revised hnone h
    have htail : ∀ e ∈ fields, e.2 = attr → payload.lookup e.1 = none :=
      fun e' he' => hnone e' (List.mem_cons_of_mem _ he')
    simp only [applyInput] at h
    split at h
    next value hvalue =>
      split at h
      · refine (ih htail h).trans (Function.update_of_ne ?_ _ _)
        rintro rfl
        rw [hnone e List.mem_cons_self rfl] at hvalue
        cases hvalue
      · cases h
    · exact ih htail h

/-- Codes are unique among the live rows; texts are kept as they are. -/
def directionPipeline : Pipeline where
  module := tradeDirections
  fields := [("code", "code"), ("name", "name"), ("description", "description"), ("status", "status")]
  transform := .ok
  schema := fun _ data => .ok (data.map fun e => (e.1, some e.2))
  required := ["code", "name"]
  convert := fun _ value => .ok value
  validateData := fun _ row _ => .ok row
  constraint := fun records => decide (((records.values.filter fun r => !r.deleted).map fun r => r.attrs "code").Nodup)

theorem directionPipeline_matchFixed :
    ∀ key ∈ directionPipeline.module.matchKey, directionPipeline.module.mayUpdate key = false := by
  decide

/-- Input changes no match key that neither transform, schema nor check fills in. -/
theorem Pipeline.sameKey_of_revise {c : Pipeline} {create : Bool} {records : Records} {row revised : RecordRow} {data : Data}
    (hfields : ∀ key ∈ c.module.matchKey, ∀ e ∈ c.fields, e.2 = c.attrOf key → e.1 = key)
    (hschema : ∀ transformed payload key, c.transform data = .ok transformed → c.schema (!create) transformed = .ok payload →
      data.lookup key = none → payload.lookup key = none)
    (hcheck : ∀ applied payload, c.validateData records applied payload = .ok revised → revised = applied)
    (h : c.revise create records row data = .ok revised) (hnone : ∀ key ∈ c.module.matchKey, data.lookup key = none) :
    SameKey c row revised := by
  obtain ⟨transformed, htransformed, h⟩ := Checks.bind_eq_ok.1 h
  obtain ⟨payload, hpayload, h⟩ := Checks.bind_eq_ok.1 h
  split at h
  · cases h
  · obtain ⟨applied, happlied, h⟩ := Checks.bind_eq_ok.1 h
    obtain rfl := hcheck applied payload h
    have hother : ∀ key ∈ c.module.matchKey, ∀ e ∈ c.fields, e.2 = c.attrOf key → payload.lookup e.1 = none := by
      intro key hkey e he hattr
      rw [hfields key hkey e he hattr]
      exact hschema transformed payload key htransformed hpayload (hnone key hkey)
    refine ⟨Pipeline.applyInput_deleted happlied, ?_⟩
    intro key hkey
    exact Pipeline.applyInput_other (hother key hkey) happlied

theorem lookup_map_some {data : Data} {key : String} {f : String × Value → Value} (h : data.lookup key = none) :
    (data.map fun e => (e.1, some (f e))).lookup key = none := by
  rw [List.lookup_eq_none_iff] at h ⊢
  intro e he
  obtain ⟨e', he', rfl⟩ := List.mem_map.1 he
  exact h e' he'

theorem directionPipeline_keeps (records : Records) (row : RecordRow) (data : Data) (revised : RecordRow)
    (h : directionPipeline.revise false records row data = .ok revised)
    (hnone : ∀ key ∈ directionPipeline.module.matchKey, data.lookup key = none) : SameKey directionPipeline row revised := by
  refine Pipeline.sameKey_of_revise (by decide) ?_ ?_ h hnone
  · rintro transformed payload key ⟨⟩ ⟨⟩ hkey
    exact lookup_map_some hkey
  · rintro applied payload ⟨⟩
    rfl

def directions : Collection := ⟨directionPipeline, directionPipeline_matchFixed, directionPipeline_keeps⟩

def direction (code name : String) : RecordRow :=
  ⟨fun attr => if attr = "code" then some (.text code) else if attr = "name" then some (.text name) else none, false⟩

def directionLine (excelRow : ℕ) (code name : String) : ParsedRow :=
  ⟨excelRow, [("code", .text code), ("name", .text name)]⟩

/-- One stored session with these rows. -/
def storedSession (rows : List ParsedRow) : Sessions := ⟨[⟨"t1", 7, .createAndUpdate, rows, 1800⟩], List.nodup_singleton _⟩

namespace ImportSystem

/-- One direction is revised and another one is new; a second call and a cancel come too late. -/
theorem confirmations_faithful_twice :
    Sound directionPipeline (run (step directionPipeline plainReadings)
      (start (storedSession [directionLine 2 "IMP" "Import sea", directionLine 3 "EXP" "Export"])
        (Table.empty.insert (direction "IMP" "Import")) [])
      [.confirm "t1" 7, .confirm "t1" 7, .cancel "t1" 7, .advance 2 60, .advance 1 61, .advance 3 62, .advance 2 63]) := by
  have hmeets : Meets (step directionPipeline plainReadings) (Apart directionPipeline plainReadings)
      (start (storedSession [directionLine 2 "IMP" "Import sea", directionLine 3 "EXP" "Export"])
        (Table.empty.insert (direction "IMP" "Import")) [])
      [.confirm "t1" 7, .confirm "t1" 7, .cancel "t1" 7, .advance 2 60, .advance 1 61, .advance 3 62, .advance 2 63] := by
    decide +kernel
  exact @confirmations_faithful directions _ _ _ _ _ hmeets

/-- Two rows with the code `/` revise one direction, and the job counts two. -/
theorem slash_code_counted_twice :
    ¬∀ (c : Collection) (readings : Readings) (sessions : Sessions) (records : Records) (jobs : List ImportJob)
        (as : List ImportAction),
      Sound c.toPipeline (run (step c.toPipeline readings) (start sessions records jobs) as) := by
  intro h
  have hsound := h directions plainReadings (storedSession [directionLine 2 "/" "First", directionLine 3 "/" "Second"])
    (Table.empty.insert (direction "/" "Any")) [] [.confirm "t1" 7, .advance 1 60, .advance 1 61]
  have hcounted : ∀ e ∈ (run (step directionPipeline plainReadings)
      (start (storedSession [directionLine 2 "/" "First", directionLine 3 "/" "Second"])
        (Table.empty.insert (direction "/" "Any")) []) [.confirm "t1" 7, .advance 1 60, .advance 1 61]).log,
      ∀ job ∈ e.job, job.status = .completed → job.updated = (e.preview.filterMap Item.updateId?).dedup.length := by
    intro e he job hjob hcompleted
    obtain ⟨created, -, -, hupdated, -⟩ := (hsound.2 e he).atomic job hjob hcompleted
    exact hupdated
  exact absurd hcounted (by decide +kernel)

end ImportSystem
end LcsSystem.ExcelIo
