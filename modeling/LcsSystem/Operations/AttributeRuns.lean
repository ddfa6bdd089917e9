import LcsSystem.MasterData.ComponentAttributes
import LcsSystem.Operations.LayoutRuns

/-!
# Saved values and the attributes they belong to

A value is stored under the code of an attribute, so it belongs to a field as long as the attribute keeps that
code. A run remembers under which attribute each value was saved; `keeps_field` says when it is still there. The
guards of `update_attribute` and `delete_attribute` look at the groups an attribute is in now, `LosesNoField` is what
they miss.
-/

namespace LcsSystem
open Relational Checks Transition

/-! ## Requests -/

inductive AttributeAction
  | createAttribute (p : AttributePayload)
  | updateAttribute (attributeId : ℕ) (p : AttributePayload)
  | deleteAttribute (attributeId : ℕ)
  | addGroupAttribute (groupId : ℕ) (p : MembershipPayload)
  | updateGroupAttribute (membershipId : ℕ) (p : MembershipPayload)
  | removeGroupAttribute (membershipId : ℕ)
  | bulkSave (orderId groupId : ℕ) (rows : List RowPayload) (tabGroupId : Option ℕ)

/-- The tables, and the attribute whose code the key of a row's value was when it was saved. -/
structure AttributeState where
  db : ConfigDb
  savedUnder : ℕ → String → Option ℕ

def attributeOfCode (db : ConfigDb) (code : String) : Option ℕ :=
  (db.attributes.rows.find? fun r => r.2.code == code).map Prod.fst

/-- The rows of an order in a group were saved. -/
def AttributeState.saved (s : AttributeState) (db : ConfigDb) (orderId groupId : ℕ) : AttributeState where
  db := db
  savedUnder id key :=
    if ∃ row ∈ db.rows.get? id, row.serviceOrderId = orderId ∧ row.groupId = groupId then
      (attributeOfCode db key).or (s.savedUnder id key)
    else s.savedUnder id key

section
variable (compiles fromIsoFormat : String → Bool)

def AttributeAction.request (db : ConfigDb) : AttributeAction → Result ConfigDb
  | .createAttribute p => LcsSystem.createAttribute compiles db p
  | .updateAttribute attributeId p => LcsSystem.updateAttribute compiles db attributeId p
  | .deleteAttribute attributeId => LcsSystem.deleteAttribute db attributeId
  | .addGroupAttribute groupId p => LcsSystem.addGroupAttribute db groupId p
  | .updateGroupAttribute membershipId p => LcsSystem.updateGroupAttribute db membershipId p
  | .removeGroupAttribute membershipId => LcsSystem.removeGroupAttribute db membershipId
  | .bulkSave orderId groupId rows tabGroupId => LcsSystem.bulkSave fromIsoFormat db orderId groupId rows tabGroupId

def attributeStep (s : AttributeState) (a : AttributeAction) : AttributeState :=
  match a.request compiles fromIsoFormat s.db, a with
  | .ok db, .bulkSave orderId groupId _ _ => s.saved db orderId groupId
  | .ok db, _ => { s with db := db }
  | .error _, _ => s

end

/-! ## What must not be lost -/

/-- The attribute under which a stored value was saved exists and has that code. -/
def KeepsField (s : AttributeState) : Prop :=
  ∀ id row, s.db.rows.get? id = some row → ∀ entry ∈ row.values, ∀ attributeId ∈ s.savedUnder id entry.1,
    ∃ a, s.db.attributes.get? attributeId = some a ∧ a.code = entry.1

/-- No row stores a value under the code. -/
def NoValueUnder (db : ConfigDb) (code : String) : Prop :=
  ∀ row ∈ db.rows.values, ∀ entry ∈ row.values, entry.1 ≠ code

instance (db : ConfigDb) (code : String) : Decidable (NoValueUnder db code) :=
  inferInstanceAs (Decidable (∀ row ∈ db.rows.values, _))

/-- An attribute that no guard keeps is only renamed or deleted while nothing is stored under its code. -/
def LosesNoField (s : AttributeState) : AttributeAction → Prop
  | .updateAttribute attributeId p => ∀ a ∈ s.db.attributes.get? attributeId, ∀ rawCode ∈ p.code,
      normalizeCode rawCode ≠ a.code → attributeRowReferences s.db attributeId = 0 → NoValueUnder s.db a.code
  | .deleteAttribute attributeId => ∀ a ∈ s.db.attributes.get? attributeId,
      attributeInUse s.db attributeId = false → NoValueUnder s.db a.code
  | _ => True

instance (s : AttributeState) : ∀ a, Decidable (LosesNoField s a)
  | .updateAttribute attributeId _ => inferInstanceAs (Decidable (∀ a ∈ s.db.attributes.get? attributeId, _))
  | .deleteAttribute attributeId => inferInstanceAs (Decidable (∀ a ∈ s.db.attributes.get? attributeId, _))
  | .createAttribute _ | .addGroupAttribute _ _ | .updateGroupAttribute _ _ | .removeGroupAttribute _
  | .bulkSave _ _ _ _ => .isTrue trivial

variable {s : AttributeState} {db' : ConfigDb}

/-- A write that leaves the rows alone, and the code of every attribute under which something is stored. -/
theorem KeepsField.of_attributes (h : KeepsField s) (hrows : db'.rows = s.db.rows)
    (hattributes : ∀ id a, s.db.attributes.get? id = some a → ¬NoValueUnder s.db a.code →
      ∃ a', db'.attributes.get? id = some a' ∧ a'.code = a.code) : KeepsField { s with db := db' } := by
  intro id row hrow entry hentry attributeId hsaved
  replace hrow : s.db.rows.get? id = some row := hrows ▸ hrow
  obtain ⟨a, ha, hcode⟩ := h id row hrow entry hentry attributeId hsaved
  have hstored : ¬NoValueUnder s.db a.code := fun hnone =>
    hnone row (Table.mem_values.2 ⟨id, hrow⟩) entry hentry hcode.symm
  obtain ⟨a', ha', hsame⟩ := hattributes attributeId a ha hstored
  exact ⟨a', ha', hsame.trans hcode⟩

theorem code_of_validatedCode {rawCode code : String} (h : validatedCode rawCode = .ok code) : code = normalizeCode rawCode := by
  simp only [validatedCode, bind_eq_ok, pure_eq_ok] at h
  obtain ⟨-, -, -, -, -, -, rfl⟩ := h
  rfl

/-- A new code is one that no row of the attribute's groups stands in the way of. -/
theorem renameAttribute_eq_ok {db : ConfigDb} {attributeId : ℕ} {a : ComponentAttribute} {rawCode code : String}
    (h : renameAttribute db attributeId a rawCode = .ok code) :
    code = a.code ∨ normalizeCode rawCode ≠ a.code ∧ attributeRowReferences db attributeId = 0 := by
  simp only [renameAttribute, bind_eq_ok] at h
  obtain ⟨validated, hvalidated, h⟩ := h
  split at h
  · next hsame =>
    rw [pure_eq_ok] at h
    exact .inl (h ▸ hsame)
  · next hother =>
    simp only [bind_eq_ok, check_eq_ok] at h
    obtain ⟨-, -, -, hnone, -⟩ := h
    rw [code_of_validatedCode hvalidated] at hother
    exact .inr ⟨hother, hnone⟩

section
variable {compiles fromIsoFormat : String → Bool}

theorem updateAttribute_keeps {attributeId : ℕ} {p : AttributePayload}
    (h : updateAttribute compiles s.db attributeId p = .ok db') (hs : KeepsField s)
    (hloses : LosesNoField s (.updateAttribute attributeId p)) : KeepsField { s with db := db' } := by
  simp only [updateAttribute, bind_eq_ok, require_eq_ok, check_eq_ok, pure_eq_ok] at h
  obtain ⟨stored, hstored, code, hcode, -, -, -, -, rfl⟩ := h
  refine hs.of_attributes rfl fun id a ha hused => ?_
  by_cases hid : id = attributeId
  · subst hid
    rw [hstored, Option.some.injEq] at ha
    subst ha
    refine ⟨stored.patched p code, by simp [hstored], ?_⟩
    show code = stored.code
    cases hraw : p.code with
    | none =>
      rw [hraw, codeAfter, Except.ok.injEq] at hcode
      exact hcode.symm
    | some rawCode =>
      rw [hraw] at hcode
      rcases renameAttribute_eq_ok hcode with hsame | ⟨hother, hnone⟩
      · exact hsame
      · exact absurd (hloses stored hstored rawCode hraw hother hnone) hused
  · exact ⟨a, (Table.get?_modify_of_ne _ hid).trans ha, rfl⟩

theorem deleteAttribute_keeps {attributeId : ℕ} (h : deleteAttribute s.db attributeId = .ok db') (hs : KeepsField s)
    (hloses : LosesNoField s (.deleteAttribute attributeId)) : KeepsField { s with db := db' } := by
  simp only [deleteAttribute, bind_eq_ok, require_eq_ok] at h
  obtain ⟨stored, hstored, h⟩ := h
  split at h
  · rw [pure_eq_ok] at h
    subst h
    refine hs.of_attributes rfl fun id a ha _ => ?_
    by_cases hid : id = attributeId
    · subst hid
      exact ⟨{ a with status := "INACTIVE" }, by simp [ha], rfl⟩
    · exact ⟨a, (Table.get?_modify_of_ne _ hid).trans ha, rfl⟩
  · next hfree =>
    rw [pure_eq_ok] at h
    subst h
    refine hs.of_attributes rfl fun id a ha hused => ?_
    have hid : id ≠ attributeId := by
      rintro rfl
      rw [hstored, Option.some.injEq] at ha
      exact hused (ha ▸ hloses stored hstored (by simpa using hfree))
    exact ⟨a, by simp [Table.get?_erase, ha, Option.filter, hid], rfl⟩

theorem attributeOfCode_spec {db : ConfigDb} {code : String} {id : ℕ} (h : attributeOfCode db code = some id) :
    ∃ a, db.attributes.get? id = some a ∧ a.code = code := by
  obtain ⟨r, hr, rfl⟩ := Option.map_eq_some_iff.1 h
  have hcode := List.find?_some hr
  exact ⟨r.2, Table.get?_eq_some.2 (List.mem_of_find?_eq_some hr), by simpa using hcode⟩

theorem attributeOfCode_isSome {db : ConfigDb} {id : ℕ} {a : ComponentAttribute} (h : db.attributes.get? id = some a) :
    (attributeOfCode db a.code).isSome = true := by
  rw [attributeOfCode, Option.isSome_map, List.find?_isSome]
  exact ⟨(id, a), Table.get?_eq_some.1 h, by simp⟩

theorem bulkSave_keeps {orderId groupId : ℕ} {rows : List RowPayload} {tabGroupId : Option ℕ}
    (h : bulkSave fromIsoFormat s.db orderId groupId rows tabGroupId = .ok db') (hs : KeepsField s) :
    KeepsField (s.saved db' orderId groupId) := by
  simp only [bulkSave, bind_eq_ok, require_eq_ok, pure_eq_ok] at h
  obtain ⟨order, -, group, -, layout, -, -, -, -, -, -, -, rfl⟩ := h
  intro id row hrow entry hentry attributeId hsaved
  have hunchanged : s.db.rows.get? id = some row → s.savedUnder id entry.1 = some attributeId →
      ∃ a, s.db.attributes.get? attributeId = some a ∧ a.code = entry.1 :=
    fun hget hbound => hs id row hget entry hentry attributeId hbound
  have hexisting : ∀ checked ∈ (validateRows fromIsoFormat (fun type => s.db.referenceIds type orderId)
      (groupAttributes s.db.toConfiguration groupId) (storedRows s.db orderId groupId) [] 1 rows).filterMap Except.toOption,
      ∀ stored ∈ checked.existing, s.db.rows.get? stored.1 = some stored.2 ∧
        stored.2.serviceOrderId = orderId ∧ stored.2.groupId = groupId := by
    intro checked hchecked stored hstored
    obtain ⟨item, -, hitem, -⟩ := mem_validateRows hchecked
    obtain ⟨hget, hscope⟩ := Table.mem_select.1 (existingRow_mem (hitem.symm.trans hstored))
    exact ⟨hget, by simpa using hscope⟩
  simp only [AttributeState.saved, Option.mem_def] at hsaved
  rcases get?_writeRows hexisting hrow with hget | ⟨hscope, checked, hchecked, hvalues, hnamed⟩
  · split at hsaved
    · rw [Option.or_eq_some_iff] at hsaved
      rcases hsaved with hbound | ⟨-, hbound⟩
      · exact attributeOfCode_spec hbound
      · exact hunchanged hget hbound
    · exact hunchanged hget hsaved
  · rw [if_pos ⟨row, hrow, hscope⟩, Option.or_eq_some_iff] at hsaved
    rcases hsaved with hbound | ⟨hnone, hbound⟩
    · exact attributeOfCode_spec hbound
    · -- The key is no attribute's code now, so the row that is updated had the value before.
      obtain ⟨item, -, hitem, hvalid⟩ := mem_validateRows hchecked
      rw [hvalues] at hentry
      rcases key_of_validateValues hvalid hentry with hkept | ⟨member, hmember, hcode⟩
      · rw [← hitem] at hkept
        cases hstored : checked.existing with
        | none =>
          rw [hstored] at hkept
          cases hkept
        | some stored =>
          rw [hstored] at hkept
          have hget := (hexisting checked hchecked stored hstored).1
          rw [hnamed stored hstored] at hget
          exact hs id stored.2 hget entry hkept attributeId hbound
      · have hsome := attributeOfCode_isSome (mem_activeMemberships.1 hmember).2.2.2.2.1
        rw [hcode] at hsome
        rw [show attributeOfCode s.db entry.1 = none from hnone] at hsome
        cases hsome

/-! ## Runs -/

theorem attributeStep_keepsField (s : AttributeState) (a : AttributeAction) (hs : KeepsField s) (hloses : LosesNoField s a) :
    KeepsField (attributeStep compiles fromIsoFormat s a) := by
  unfold attributeStep
  cases hrequest : a.request compiles fromIsoFormat s.db with
  | error e => exact hs
  | ok db' =>
    cases a with
    | updateAttribute attributeId p => exact updateAttribute_keeps hrequest hs hloses
    | deleteAttribute attributeId => exact deleteAttribute_keeps hrequest hs hloses
    | bulkSave orderId groupId rows tabGroupId => exact bulkSave_keeps hrequest hs
    | createAttribute p =>
      simp only [AttributeAction.request, createAttribute, bind_eq_ok, pure_eq_ok] at hrequest
      obtain ⟨-, -, code, -, -, -, -, -, rfl⟩ := hrequest
      exact hs.of_attributes rfl fun id a ha _ => ⟨a, Table.get?_insert_of_some ha, rfl⟩
    | addGroupAttribute groupId p =>
      simp only [AttributeAction.request, addGroupAttribute, bind_eq_ok, pure_eq_ok] at hrequest
      obtain ⟨-, -, attributeId, -, -, -, rfl⟩ := hrequest
      exact hs.of_attributes rfl fun id a ha _ => ⟨a, ha, rfl⟩
    | updateGroupAttribute membershipId p =>
      simp only [AttributeAction.request, updateGroupAttribute, bind_eq_ok, pure_eq_ok] at hrequest
      obtain ⟨-, -, rfl⟩ := hrequest
      exact hs.of_attributes rfl fun id a ha _ => ⟨a, ha, rfl⟩
    | removeGroupAttribute membershipId =>
      simp only [AttributeAction.request, removeGroupAttribute, bind_eq_ok, pure_eq_ok] at hrequest
      obtain ⟨-, -, rfl⟩ := hrequest
      exact hs.of_attributes rfl fun id a ha _ => ⟨a, ha, rfl⟩

/-- **Every saved value keeps its field** in any state of a run, as long as no request takes the code away from
values that no guard sees. -/
theorem keeps_field {s : AttributeState} (hs : KeepsField s) {as : List AttributeAction}
    (hmeets : Meets (attributeStep compiles fromIsoFormat) LosesNoField s as) :
    KeepsField (run (attributeStep compiles fromIsoFormat) s as) :=
  run_invariant_of_meets KeepsField attributeStep_keepsField hs hmeets

end

/-- The form with one order, before anything is saved. -/
def unsavedForm : AttributeState := ⟨orderedForm, fun _ _ => none⟩

theorem unsavedForm_keepsField : KeepsField unsavedForm := fun id row hrow => by cases hrow

/-- A second field is created, a row is saved, a rename is refused, a deletion only deactivates, and a field that
nothing is stored for is renamed. -/
def fieldsInTurn : List AttributeAction :=
  [.createAttribute { AttributePayload.empty with label := some "Seal No." },
    .addGroupAttribute 1 ⟨some 2, none, none, none, none, none, none⟩,
    .bulkSave 1 1 [containerRow "MSKU1"] (some 1),
    .updateAttribute 1 { AttributePayload.empty with code := some "box-no" },
    .deleteAttribute 1,
    .removeGroupAttribute 2,
    .updateAttribute 2 { AttributePayload.empty with code := some "seal" }]

theorem keeps_field_fieldsInTurn :
    KeepsField (run (attributeStep (fun _ => true) fun _ => false) unsavedForm fieldsInTurn) :=
  keeps_field unsavedForm_keepsField (by decide +kernel)

/-- A value is saved, its field is taken out of the group and then renamed. -/
def fieldRenamed : List AttributeAction :=
  [.bulkSave 1 1 [containerRow "MSKU1"] (some 1), .removeGroupAttribute 1,
    .updateAttribute 1 { AttributePayload.empty with code := some "box-no" }]

theorem value_loses_field : ¬∀ as, KeepsField (run (attributeStep (fun _ => true) fun _ => false) unsavedForm as) := by
  intro h
  have hlost : (run (attributeStep (fun _ => true) fun _ => false) unsavedForm fieldRenamed).db.rows.get? 1 =
        some ⟨1, 1, 1, false, [("container-no", .str "MSKU1")], none⟩ ∧
      (run (attributeStep (fun _ => true) fun _ => false) unsavedForm fieldRenamed).savedUnder 1 "container-no" = some 1 ∧
      ((run (attributeStep (fun _ => true) fun _ => false) unsavedForm fieldRenamed).db.attributes.get? 1).map
        ComponentAttribute.code = some "box-no" := by decide +kernel
  obtain ⟨hrow, hsaved, hrenamed⟩ := hlost
  obtain ⟨a, ha, hcode⟩ := h fieldRenamed 1 _ hrow _ List.mem_cons_self 1 hsaved
  rw [ha, Option.map_some, hcode] at hrenamed
  exact absurd hrenamed (by decide)

end LcsSystem
