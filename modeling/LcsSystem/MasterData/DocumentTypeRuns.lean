import LcsSystem.MasterData.DocumentTypes

/-!
# What document types keep

The code and the behaviour of a document type over its edits, deletions and restores, and the canonical types. The
checks of an update compare the edited row with itself, so what it sends is what is stored.
-/

namespace LcsSystem
open Relational Checks Transition

/-! ## Texts -/

/-- What is read of a normalized text. -/
theorem normalized_text (f : Field String) : f.normalized.text.get? = f.text.get?.map upper := by
  cases f with
  | value s =>
    have hstrip : strip (upper (strip s)) = upper (strip s) := by rw [strip_upper, strip_strip]
    have hblank : upper (strip s) = "" ↔ strip s = "" := by
      rw [← String.toList_inj, ← String.toList_inj]
      simp [upper]
    by_cases h : strip s = ""
    · have h' : strip (upper (strip s)) = "" := hstrip.trans (hblank.2 h)
      simp only [Field.normalized, Field.text, h', if_pos h, if_true, Field.get?, Option.map_none]
    · simp [Field.normalized, Field.text, hstrip, hblank, h, Field.get?]
  | _ => rfl

theorem upper_of_normalized {f : Field String} {s : String} (h : f.normalized.text.get? = some s) : upper s = s := by
  rw [normalized_text, Option.map_eq_some_iff] at h
  obtain ⟨t, -, rfl⟩ := h
  exact upper_upper t

/-! ## Updates -/

section
variable {types types' : DocumentTypes} {id : ℕ} {row row' stored : DocumentTypeRow} {body : DocumentTypePayload}

/-- **The stored row of the check is the edited one**: it never finds another behaviour. -/
theorem documentTypeErrors_self (row : DocumentTypeRow) :
    documentTypeErrors row (some row) = documentTypeErrors row none := by
  simp [documentTypeErrors]

/-- The update passes its checks. -/
structure PassesChecks (types : DocumentTypes) (id : ℕ) (stored : DocumentTypeRow) (body : DocumentTypePayload) :
    Prop where
  found : types.get? id = some stored
  active : stored.deleted = false
  items : (documentTypeInput body).items true = []
  complete : missingFields (some stored) (documentTypeInput body) = []
  errors : documentTypeErrors (applyInput stored (documentTypeInput body)) none = []
  status : body.status.sent = false ∨ body.status.text.given = true
  free : codeFree types id (applyInput stored (documentTypeInput body)).code = true

theorem applyInput_code (stored : DocumentTypeRow) (p : DocumentTypePayload) :
    p.code.text.get?.all (· = (applyInput stored p).code) = true := by
  cases h : p.code.text.get? <;> simp [applyInput, h]

theorem updateDocumentType_eq_ok : updateDocumentType types id body = .ok types' ↔
    ∃ stored, PassesChecks types id stored body ∧
      types' = types.modify id fun _ => applyInput stored (documentTypeInput body) := by
  simp only [updateDocumentType, RecordSchema.validate, validateDocumentType, flushRow, documentTypeErrors_self,
    bind_eq_ok, require_eq_ok, check_eq_ok, pure_eq_ok, Option.filter_eq_some_iff]
  constructor
  · rintro ⟨stored, ⟨hfound, hactive⟩, -, hitems, -, hcomplete, -, ⟨-, herrors, -⟩, -, ⟨-, hstatus, hfree⟩, rfl⟩
    have hactive : stored.deleted = false := by simpa using hactive
    have hdeleted : (applyInput stored (documentTypeInput body)).deleted = false := hactive
    rw [hdeleted] at hfree
    exact ⟨stored, ⟨hfound, hactive, hitems, hcomplete, herrors, hstatus, by simpa using hfree⟩, rfl⟩
  · rintro ⟨stored, h, rfl⟩
    exact ⟨stored, ⟨h.found, by simp [h.active]⟩, ⟨⟩, h.items, ⟨⟩, h.complete, ⟨⟩,
      ⟨⟨⟩, h.errors, .inr (applyInput_code stored _)⟩, ⟨⟩, ⟨⟨⟩, h.status, .inr h.free⟩, rfl⟩

/-- The accepted update sends no code and no behaviour but the stored ones. -/
def SendsStored (types : DocumentTypes) : DocumentTypeAction → Prop
  | .update id body => ∀ stored, PassesChecks types id stored body →
      (documentTypeInput body).code.text.get?.getD stored.code = stored.code ∧
      (documentTypeInput body).accountingBehavior.text.get?.getD stored.accountingBehavior = stored.accountingBehavior
  | _ => True

/-! ## What a step keeps -/

/-- Every row is there, with its code and its behaviour. -/
def MeaningKept (types types' : DocumentTypes) : Prop :=
  ∀ id row, types.get? id = some row →
    ∃ row', types'.get? id = some row' ∧ row'.code = row.code ∧ row'.accountingBehavior = row.accountingBehavior

theorem MeaningKept.refl (types : DocumentTypes) : MeaningKept types types :=
  fun _ row h => ⟨row, h, rfl, rfl⟩

theorem MeaningKept.trans {types'' : DocumentTypes} (h : MeaningKept types types') (h' : MeaningKept types' types'') :
    MeaningKept types types'' := by
  intro id row hrow
  obtain ⟨row', hrow', hcode, hbehavior⟩ := h id row hrow
  obtain ⟨row'', hrow'', hcode', hbehavior'⟩ := h' id row' hrow'
  exact ⟨row'', hrow'', hcode'.trans hcode, hbehavior'.trans hbehavior⟩

theorem meaningKept_modify {f : DocumentTypeRow → DocumentTypeRow}
    (h : ∀ row, types.get? id = some row → (f row).code = row.code ∧
      (f row).accountingBehavior = row.accountingBehavior) : MeaningKept types (types.modify id f) := by
  intro i row hrow
  rw [Table.get?_modify]
  split
  · next hi =>
    subst hi
    exact ⟨f row, by rw [hrow]; rfl, h row hrow⟩
  · exact ⟨row, hrow, rfl, rfl⟩

theorem archiveRows_keeps (ids : List ℕ) : ∀ types : DocumentTypes, MeaningKept types (archiveRows types ids) := by
  induction ids with
  | nil => exact MeaningKept.refl
  | cons id ids ih =>
    intro types
    unfold archiveRows
    split
    · exact (meaningKept_modify (f := fun row => { row with deleted := true }) fun _ _ => ⟨rfl, rfl⟩).trans
        (ih (setDeleted types id true))
    · exact MeaningKept.refl types

def KeepsMeaning (types : DocumentTypes) (a : DocumentTypeAction) : Prop := MeaningKept types (a.step types)

theorem keepsMeaning_of_ok {a : DocumentTypeAction} (h : ∀ types', a.perform types = .ok types' → MeaningKept types types') :
    KeepsMeaning types a := by
  unfold KeepsMeaning DocumentTypeAction.step
  cases hperform : a.perform types with
  | ok types' => exact h types' hperform
  | error e => exact MeaningKept.refl types

theorem createDocumentType_eq_ok (h : createDocumentType types body = .ok types') :
    documentTypeErrors (applyInput newDocumentType (documentTypeInput body)) none = [] ∧
      types' = types.insert (applyInput newDocumentType (documentTypeInput body)) := by
  simp only [createDocumentType, validateDocumentType, bind_eq_ok, check_eq_ok, pure_eq_ok] at h
  obtain ⟨-, -, -, -, -, ⟨-, herrors, -⟩, -, -, rfl⟩ := h
  exact ⟨herrors, rfl⟩

theorem deleteDocumentTypes_eq_ok {ids : List ℕ} (h : deleteDocumentTypes types ids = .ok types') :
    (∀ r ∈ types.rows, r.1 ∈ ids → r.2.code ∉ canonicalDocumentBehaviors) ∧
      types' = archiveRows types ((types.rows.filter fun r => r.1 ∈ ids).map Prod.fst) := by
  simp only [deleteDocumentTypes, bind_eq_ok, check_eq_ok, pure_eq_ok, List.all_eq_true, List.mem_filter,
    decide_eq_true_eq] at h
  obtain ⟨-, -, -, hcanonical, rfl⟩ := h
  exact ⟨fun r hr hid => hcanonical r ⟨hr, hid⟩, rfl⟩

theorem restoreDocumentType_eq_ok (h : restoreDocumentType types id = .ok types') :
    types' = setDeleted types id false := by
  simp only [restoreDocumentType, bind_eq_ok, require_eq_ok, check_eq_ok, pure_eq_ok] at h
  obtain ⟨_, -, -, -, -, -, rfl⟩ := h
  rfl

/-- An accepted update keeps the meaning of its row exactly when it sends what is stored. -/
theorem update_keeps_iff : KeepsMeaning types (.update id body) ↔ SendsStored types (.update id body) := by
  constructor
  · intro h stored hpass
    have hok := updateDocumentType_eq_ok.2 ⟨stored, hpass, rfl⟩
    obtain ⟨row', hrow', hcode, hbehavior⟩ := h id stored hpass.found
    simp only [DocumentTypeAction.step, DocumentTypeAction.perform, hok, orKeep, Table.get?_modify_self, hpass.found,
      Option.map_some, Option.some.injEq] at hrow'
    subst hrow'
    exact ⟨hcode, hbehavior⟩
  · intro h
    refine keepsMeaning_of_ok fun types' hok => ?_
    obtain ⟨stored, hpass, rfl⟩ := updateDocumentType_eq_ok.1 hok
    refine meaningKept_modify fun row hrow => ?_
    rw [hpass.found] at hrow
    cases hrow
    exact h stored hpass

theorem keepsMeaning_iff (a : DocumentTypeAction) : KeepsMeaning types a ↔ SendsStored types a := by
  cases a with
  | update id body => exact update_keeps_iff
  | create body =>
    refine iff_of_true (keepsMeaning_of_ok fun types' hok => ?_) trivial
    obtain ⟨-, rfl⟩ := createDocumentType_eq_ok hok
    exact fun i row hrow => ⟨row, Table.get?_insert_of_some hrow, rfl, rfl⟩
  | changeStatus id target =>
    refine iff_of_true (keepsMeaning_of_ok fun types' hok => ?_) trivial
    obtain ⟨stored, hpass, rfl⟩ := updateDocumentType_eq_ok.1 hok
    refine meaningKept_modify fun row hrow => ?_
    rw [hpass.found] at hrow
    cases hrow
    exact ⟨rfl, rfl⟩
  | delete ids =>
    refine iff_of_true (keepsMeaning_of_ok fun types' hok => ?_) trivial
    obtain ⟨-, rfl⟩ := deleteDocumentTypes_eq_ok hok
    exact archiveRows_keeps _ types
  | restore id =>
    refine iff_of_true (keepsMeaning_of_ok fun types' hok => ?_) trivial
    rw [restoreDocumentType_eq_ok hok]
    exact meaningKept_modify fun _ _ => ⟨rfl, rfl⟩

/-! ## Canonical types -/

/-- Codes and behaviours are in upper case; a canonical code has its own behaviour and is not archived. -/
structure WellMeant (row : DocumentTypeRow) : Prop where
  code : upper row.code = row.code
  behavior : upper row.accountingBehavior = row.accountingBehavior
  canonical : row.code ∈ canonicalDocumentBehaviors → row.accountingBehavior = row.code ∧ row.deleted = false

def AllWellMeant (types : DocumentTypes) : Prop := ∀ id row, types.get? id = some row → WellMeant row

theorem WellMeant.applyInput (hcode : upper stored.code = stored.code)
    (hbehavior : upper stored.accountingBehavior = stored.accountingBehavior) (hactive : stored.deleted = false)
    (herrors : documentTypeErrors (applyInput stored (documentTypeInput body)) none = []) :
    WellMeant (LcsSystem.applyInput stored (documentTypeInput body)) := by
  have hupper {f : Field String} {s : String} (hs : upper s = s) :
      upper (f.normalized.text.get?.getD s) = f.normalized.text.get?.getD s := by
    cases h : f.normalized.text.get? with
    | none => exact hs
    | some t => exact upper_of_normalized h
  have hcode' : upper (LcsSystem.applyInput stored (documentTypeInput body)).code =
      (LcsSystem.applyInput stored (documentTypeInput body)).code := hupper hcode
  have hbehavior' : upper (LcsSystem.applyInput stored (documentTypeInput body)).accountingBehavior =
      (LcsSystem.applyInput stored (documentTypeInput body)).accountingBehavior := hupper hbehavior
  refine ⟨hcode', hbehavior', fun hcanonical => ⟨?_, hactive⟩⟩
  simp only [documentTypeErrors, hcode', hbehavior', List.append_eq_nil_iff, ite_eq_right_iff, imp_false, not_and,
    not_not, List.cons_ne_self] at herrors
  exact herrors.1.1.1.2 hcanonical

theorem allWellMeant_setDeleted (h : AllWellMeant types) {deleted : Bool}
    (hdeleted : ∀ row, types.get? id = some row → deleted = true → row.code ∉ canonicalDocumentBehaviors) :
    AllWellMeant (setDeleted types id deleted) := by
  intro i row hrow
  rw [setDeleted, Table.get?_modify] at hrow
  split at hrow
  · next hi =>
    obtain ⟨old, hold, rfl⟩ := Option.map_eq_some_iff.1 hrow
    subst hi
    refine ⟨(h i old hold).code, (h i old hold).behavior, fun hcanonical => ⟨((h i old hold).canonical hcanonical).1, ?_⟩⟩
    cases deleted with
    | false => rfl
    | true => exact absurd hcanonical (hdeleted old hold rfl)
  · exact h i row hrow

theorem allWellMeant_archiveRows (ids : List ℕ) : ∀ types : DocumentTypes, AllWellMeant types →
    (∀ id ∈ ids, ∀ row, types.get? id = some row → row.code ∉ canonicalDocumentBehaviors) →
    AllWellMeant (archiveRows types ids) := by
  induction ids with
  | nil => exact fun types h _ => h
  | cons id ids ih =>
    intro types h hids
    unfold archiveRows
    split
    · refine ih _ (allWellMeant_setDeleted h fun row hrow _ => hids id List.mem_cons_self row hrow) ?_
      intro i hi row hrow
      rw [setDeleted, Table.get?_modify] at hrow
      split at hrow
      · next hsame =>
        obtain ⟨old, hold, rfl⟩ := Option.map_eq_some_iff.1 hrow
        exact hids i (List.mem_cons_of_mem _ hi) old hold
      · exact hids i (List.mem_cons_of_mem _ hi) row hrow
    · exact h

theorem AllWellMeant.modify (h : AllWellMeant types) {row : DocumentTypeRow} (hrow : WellMeant row) :
    AllWellMeant (types.modify id fun _ => row) := by
  intro i row' hrow'
  rw [Table.get?_modify] at hrow'
  split at hrow'
  · obtain ⟨-, -, rfl⟩ := Option.map_eq_some_iff.1 hrow'
    exact hrow
  · exact h i row' hrow'

/-- **Step lemma.** -/
theorem AllWellMeant.step (h : AllWellMeant types) (a : DocumentTypeAction) : AllWellMeant (a.step types) := by
  have hupdate {id : ℕ} {body : DocumentTypePayload} {types' : DocumentTypes}
      (hok : updateDocumentType types id body = .ok types') : AllWellMeant types' := by
    obtain ⟨stored, hpass, rfl⟩ := updateDocumentType_eq_ok.1 hok
    have hstored := h id stored hpass.found
    exact h.modify (WellMeant.applyInput hstored.code hstored.behavior hpass.active hpass.errors)
  unfold DocumentTypeAction.step
  cases hperform : a.perform types with
  | error e => exact h
  | ok types' =>
    cases a with
    | update id body => exact hupdate hperform
    | changeStatus id target => exact hupdate hperform
    | create body =>
      obtain ⟨herrors, rfl⟩ := createDocumentType_eq_ok hperform
      have hempty : upper "" = "" := by simp [upper]
      exact Table.forall_insert h (WellMeant.applyInput hempty hempty rfl herrors)
    | delete ids =>
      obtain ⟨hcanonical, rfl⟩ := deleteDocumentTypes_eq_ok hperform
      refine allWellMeant_archiveRows _ types h fun id hid row hrow => ?_
      obtain ⟨r, hr, rfl⟩ := List.mem_map.1 hid
      rw [List.mem_filter, decide_eq_true_eq] at hr
      have hsame : r.2 = row := by
        have := Table.get?_eq_some.2 hr.1
        rw [hrow] at this
        exact (Option.some.inj this).symm
      exact hsame ▸ hcanonical r hr.1 hr.2
    | restore id =>
      rw [restoreDocumentType_eq_ok hperform]
      exact allWellMeant_setDeleted h fun _ _ hfalse => by cases hfalse

end

theorem allWellMeant_seeded : AllWellMeant seededTypes := by
  have hrows : ∀ r ∈ seededTypes.rows, upper r.2.code = r.2.code ∧
      upper r.2.accountingBehavior = r.2.accountingBehavior ∧
      (r.2.code ∈ canonicalDocumentBehaviors → r.2.accountingBehavior = r.2.code ∧ r.2.deleted = false) := by
    decide +kernel
  intro id row hrow
  obtain ⟨hcode, hbehavior, hcanonical⟩ := hrows (id, row) (Table.get?_eq_some.1 hrow)
  exact ⟨hcode, hbehavior, hcanonical⟩

end LcsSystem
