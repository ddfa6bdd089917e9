import LcsSystem.Finance.InvoiceWrites
import LcsSystem.MasterData.DocumentTypeRuns
import LcsSystem.Operations.Containers

/-!
# Updates of a container

`ContainerWrite` says what `add_container` stores. An update is partial exactly where a column that the body leaves out
is NULL already: `updatedPartially_iff`.
-/

namespace LcsSystem
open Calendar Relational Checks Entries

/-! ## What add_container stores -/

/-- The row that `add_container` writes over `existing`, or inserts. -/
structure ContainerWrite (s : ContainerTables) (p : ContainerBody) (orderId : ℕ)
    (existing : Option (ℕ × StoredContainer)) (row : StoredContainer) : Prop where
  schema : containerWriteSchema p.partially p = []
  existing_ok : existingContainer s.containers orderId p = .ok existing
  free : ∀ text ∈ p.number, ∀ clash ∈ numberClash s.containers text, existing.map Prod.fst = some clash
  row_eq : ∃ typeId requirement net gross, storeWeight p.net = .ok net ∧ storeWeight p.gross = .ok gross ∧
    row = containerColumns orderId (existing.map Prod.snd) p typeId requirement net gross

/-- The containers with the row, and the id of the row. -/
def storeContainer (containers : Table StoredContainer) (existing : Option (ℕ × StoredContainer)) (row : StoredContainer) :
    Table StoredContainer × ℕ :=
  match existing with
  | some (id, _) => (containers.modify id fun _ => row, id)
  | none => (containers.insert row, containers.nextId)

theorem addContainer_spec {s s' : ContainerTables} {identifier : String} {p : ContainerBody} {id : ℕ}
    (h : addContainer s identifier p = .ok (s', id)) :
    ∃ orderId existing row types, ContainerWrite s p orderId existing row ∧
      s' = { s with containers := (storeContainer s.containers existing row).1, types := types } ∧
      id = (storeContainer s.containers existing row).2 := by
  simp only [addContainer, checkNumberFree, RecordSchema.validate, bind_eq_ok, require_eq_ok, check_eq_ok] at h
  obtain ⟨⟨orderId, order⟩, -, _, -, _, hschema, existing, hexisting, _, -, _, hfree, ⟨types, typeId⟩, -, _, -,
    requirement, -, net, hnet, gross, hgross, h⟩ := h
  refine ⟨orderId, existing, containerColumns orderId (existing.map Prod.snd) p typeId requirement net gross, types,
    ⟨hschema, hexisting, hfree, typeId, requirement, net, gross, hnet, hgross, rfl⟩, ?_⟩
  cases existing with
  | some found =>
    simp only [pure_eq_ok, Prod.mk.injEq] at h
    exact ⟨h.1.symm, h.2.symm⟩
  | none =>
    simp only [pure_eq_ok, Prod.mk.injEq] at h
    exact ⟨h.1.symm, h.2.symm⟩

/-- An update writes the row that it names. -/
theorem existingContainer_of_id {containers : Table StoredContainer} {orderId id : ℕ} {p : ContainerBody}
    {existing : Option (ℕ × StoredContainer)} (hid : p.id.get?.bind Reference.number = some id)
    (h : existingContainer containers orderId p = .ok existing) :
    ∃ c, existing = some (id, c) ∧ containers.get? id = some c ∧ c.serviceOrderId = orderId := by
  simp only [existingContainer, hid, bind_eq_ok, require_eq_ok, pure_eq_ok] at h
  obtain ⟨c, hc, rfl⟩ := h
  rw [Option.filter_eq_some_iff, decide_eq_true_eq] at hc
  exact ⟨c, rfl, hc.1, hc.2⟩

/-! ## Numbers -/

/-- No two containers have the same number, in any case. -/
def NumbersUnique (containers : Table StoredContainer) : Prop :=
  ∀ i j c d n m, containers.get? i = some c → containers.get? j = some d → c.containerNumber = some n →
    d.containerNumber = some m → upper n = upper m → i = j

theorem NumbersUnique.numberClash_eq {containers : Table StoredContainer} (hunique : NumbersUnique containers) {i : ℕ}
    {c : StoredContainer} {n : String} (hc : containers.get? i = some c) (hn : c.containerNumber = some n) :
    numberClash containers (upper n) = some i := by
  have hfound : (containers.rows.find? fun r => r.2.containerNumber.map upper == some (upper n)).isSome = true := by
    rw [List.find?_isSome]
    exact ⟨(i, c), Table.get?_eq_some.1 hc, by simp [hn]⟩
  obtain ⟨⟨j, d⟩, hfind⟩ := Option.isSome_iff_exists.1 hfound
  have hnumber := List.find?_some hfind
  simp only [beq_iff_eq, Option.map_eq_some_iff] at hnumber
  obtain ⟨m, hm, hupper⟩ := hnumber
  have hd : containers.get? j = some d := Table.get?_eq_some.2 (List.mem_of_find?_eq_some hfind)
  rw [numberClash, hfind, hunique i j c d n m hc hd hn hm hupper.symm]
  rfl

theorem upper_number {p : ContainerBody} {n : String} (h : p.number = some n) : upper n = n := by
  obtain ⟨text, -, rfl⟩ := Option.map_eq_some_iff.1 h
  exact upper_upper text

/-- The check of a write leaves no other row with the number of the written one. -/
theorem NumbersUnique.store {s : ContainerTables} {p : ContainerBody} {orderId : ℕ}
    {existing : Option (ℕ × StoredContainer)} {row : StoredContainer} (hunique : NumbersUnique s.containers)
    (hwrite : ContainerWrite s p orderId existing row) : NumbersUnique (storeContainer s.containers existing row).1 := by
  have hnumber : row.containerNumber = p.number := by
    obtain ⟨_, _, _, _, -, -, rfl⟩ := hwrite.row_eq
    rfl
  have hother {i : ℕ} {c : StoredContainer} {n m : String} (hc : s.containers.get? i = some c)
      (hn : c.containerNumber = some n) (hm : row.containerNumber = some m) (hupper : upper n = upper m) :
      existing.map Prod.fst = some i := by
    rw [hnumber] at hm
    rw [upper_number hm] at hupper
    exact hwrite.free m hm i (hupper ▸ hunique.numberClash_eq hc hn)
  cases existing with
  | none =>
    intro i j c d n m hc hd hn hm hupper
    simp only [storeContainer, Table.get?_insert] at hc hd
    split at hc <;> split at hd
    · next hi hj => exact hi.trans hj.symm
    · cases hc
      cases hother hd hm hn hupper.symm
    · cases hd
      cases hother hc hn hm hupper
    · exact hunique i j c d n m hc hd hn hm hupper
  | some found =>
    intro i j c d n m hc hd hn hm hupper
    simp only [storeContainer, Table.get?_modify] at hc hd
    split at hc <;> split at hd
    · next hi hj => exact hi.trans hj.symm
    · next hi hj =>
      obtain ⟨_, -, rfl⟩ := Option.map_eq_some_iff.1 hc
      exact hi.trans (Option.some.inj (hother hd hm hn hupper.symm))
    · next hi hj =>
      obtain ⟨_, -, rfl⟩ := Option.map_eq_some_iff.1 hd
      exact (Option.some.inj (hother hc hn hm hupper)).symm.trans hj.symm
    · exact hunique i j c d n m hc hd hn hm hupper

/-- A number that the schema lets through is absent or some text. -/
theorem number_of_schema {p : ContainerBody} (h : containerWriteSchema p.partially p = []) :
    p.containerNumber = .absent ∨ p.number.isSome = true := by
  simp only [containerWriteSchema, List.append_eq_nil_iff] at h
  have hcheck := h.1.1.1.1.1.1.1.1.1.1.2
  unfold ContainerBody.number
  cases hnumber : p.containerNumber with
  | absent => exact .inl rfl
  | value text =>
    by_cases hblank : strip text = ""
    · simp [checkRequiredText, hnumber, Field.text, hblank] at hcheck
    · exact .inr (by simp [Field.text, hblank, Field.get?])
  | blank => simp [checkRequiredText, hnumber, Field.text] at hcheck
  | malformed => simp [checkRequiredText, hnumber, Field.text, TextSpec.check] at hcheck

/-! ## Reading -/

/-- What is read under the keys of the columns is the columns. -/
theorem lookup_containerPayload {id : ℕ} {c : StoredContainer} {label : Option String} {e : String × Json}
    (h : e ∈ columnEntries id c label) : (containerPayload id c label).lookup e.1 = some e.2 := by
  have hkeys : ((columnEntries id c label).map Prod.fst).Nodup := by
    simp only [columnEntries, List.map_cons, List.map_nil]
    decide
  rw [containerPayload, lookup_overlay, lookup_of_mem hkeys h]
  rfl

/-! ## Partial updates -/

/-- An update changes the columns that the body carries, and reads show the columns. -/
structure UpdatedPartially (s s' : ContainerTables) (id : ℕ) (c c' : StoredContainer) (p : ContainerBody) : Prop where
  number : p.containerNumber = .absent → c'.containerNumber = c.containerNumber
  sealSerial : p.sealSerial = .absent → c'.sealSerial = c.sealSerial
  status : p.status = .absent → c'.status = c.status
  netWeight : p.netWeightKg = .absent → c'.netWeightKg = c.netWeightKg
  grossWeight : p.grossWeightKg = .absent → c'.grossWeightKg = c.grossWeightKg
  pickup : p.pickupDate = .absent → c'.pickupDate = c.pickupDate
  returned : p.returnDate = .absent → c'.returnDate = c.returnDate
  identified : c.containerNumber.isSome = true → c'.containerNumber.isSome = true
  unique : NumbersUnique s.containers → NumbersUnique s'.containers
  read : ∀ label, ∀ e ∈ columnEntries id c' label, (containerPayload id c' label).lookup e.1 = some e.2

/-- What the body leaves out is NULL, the status apart. -/
structure OmittedAreNull (c : StoredContainer) (p : ContainerBody) : Prop where
  number : p.containerNumber = .absent → c.containerNumber = none
  sealSerial : p.sealSerial = .absent → c.sealSerial = none
  netWeight : p.netWeightKg = .absent → c.netWeightKg = none
  grossWeight : p.grossWeightKg = .absent → c.grossWeightKg = none
  pickup : p.pickupDate = .absent → c.pickupDate = none
  returned : p.returnDate = .absent → c.returnDate = none

theorem number_of_absent {p : ContainerBody} (h : p.containerNumber = .absent) : p.number = none := by
  rw [ContainerBody.number, h]
  rfl

theorem storeWeight_zero {w : Option Weight} (h : storeWeight 0 = .ok w) : w = none := by
  rw [storeWeight, if_pos rfl] at h
  exact (Except.ok.inj h).symm

theorem updatedPartially_row {s s' : ContainerTables} {p : ContainerBody} {orderId id : ℕ} {c row : StoredContainer}
    (hwrite : ContainerWrite s p orderId (some (id, c)) row)
    (hs : s'.containers = (storeContainer s.containers (some (id, c)) row).1) :
    UpdatedPartially s s' id c row p ↔ OmittedAreNull c p := by
  obtain ⟨typeId, requirement, net, gross, hnet, hgross, hrow⟩ := hwrite.row_eq
  have hnumber : row.containerNumber = p.number := by rw [hrow]; rfl
  have hseal : row.sealSerial = p.sealSerial.text.get? := by rw [hrow]; rfl
  have hstatus : row.status = p.status.text.get?.getD c.status := by rw [hrow]; rfl
  have hpickup : row.pickupDate = p.pickupDate.get? := by rw [hrow]; rfl
  have hreturned : row.returnDate = p.returnDate.get? := by rw [hrow]; rfl
  have hnetWeight (habsent : p.netWeightKg = .absent) : row.netWeightKg = none := by
    rw [ContainerBody.net, habsent] at hnet
    rw [hrow]
    exact storeWeight_zero hnet
  have hgrossWeight (habsent : p.grossWeightKg = .absent) : row.grossWeightKg = none := by
    rw [ContainerBody.gross, habsent] at hgross
    rw [hrow]
    exact storeWeight_zero hgross
  constructor
  · intro h
    refine ⟨fun ha => ?_, fun ha => ?_, fun ha => ?_, fun ha => ?_, fun ha => ?_, fun ha => ?_⟩
    · rw [← h.number ha, hnumber, number_of_absent ha]
    · rw [← h.sealSerial ha, hseal, ha]
      rfl
    · rw [← h.netWeight ha, hnetWeight ha]
    · rw [← h.grossWeight ha, hgrossWeight ha]
    · rw [← h.pickup ha, hpickup, ha]
      rfl
    · rw [← h.returned ha, hreturned, ha]
      rfl
  · intro h
    refine ⟨fun ha => ?_, fun ha => ?_, fun ha => ?_, fun ha => ?_, fun ha => ?_, fun ha => ?_, fun ha => ?_,
      fun hsome => ?_, fun hunique => hs ▸ hunique.store hwrite, fun label e he => lookup_containerPayload he⟩
    · rw [h.number ha, hnumber, number_of_absent ha]
    · rw [h.sealSerial ha, hseal, ha]
      rfl
    · rw [hstatus, ha]
      rfl
    · rw [h.netWeight ha, hnetWeight ha]
    · rw [h.grossWeight ha, hgrossWeight ha]
    · rw [h.pickup ha, hpickup, ha]
      rfl
    · rw [h.returned ha, hreturned, ha]
      rfl
    · rcases number_of_schema hwrite.schema with ha | hnew
      · rw [h.number ha] at hsome
        cases hsome
      · exact hnumber ▸ hnew

/-- **An update is partial exactly where what the body leaves out is NULL.** -/
theorem updatedPartially_iff (s : ContainerTables) (identifier : String) (p : ContainerBody) (id : ℕ)
    (r : ContainerTables × ℕ) (hid : p.id.get?.bind Reference.number = some id)
    (h : addContainer s identifier p = .ok r) :
    ∃ c c', s.containers.get? id = some c ∧ r.1.containers.get? id = some c' ∧ r.2 = id ∧
      (UpdatedPartially s r.1 id c c' p ↔ OmittedAreNull c p) := by
  obtain ⟨s', saved⟩ := r
  obtain ⟨orderId, existing, row, types, hwrite, rfl, rfl⟩ := addContainer_spec h
  obtain ⟨c, rfl, hc, -⟩ := existingContainer_of_id hid hwrite.existing_ok
  have hget : (storeContainer s.containers (some (id, c)) row).1.get? id = some row := by
    rw [storeContainer, Table.get?_modify_self, hc]
    rfl
  exact ⟨c, row, hc, hget, rfl, updatedPartially_row hwrite rfl⟩

/-! ## Two updates -/

/-- A body `{}`. -/
def ContainerBody.empty : ContainerBody where
  id := .absent
  containerNumber := .absent
  containerType := .absent
  containerTypeId := .absent
  containerRequirementId := .absent
  sealSerial := .absent
  status := .absent
  netWeightKg := .absent
  grossWeightKg := .absent
  pickupDate := .absent
  returnDate := .absent
  description := .absent
  rest := []
  unknown := []

/-- A row that was prepared for an order, with a number or without. -/
def preparedContainer (orderId : ℕ) (number : Option String) : StoredContainer where
  serviceOrderId := orderId
  containerRequirementId := none
  containerTypeId := 1
  containerNumber := number
  sealSerial := none
  status := "EXPECTED"
  netWeightKg := none
  grossWeightKg := none
  pickupDate := none
  returnDate := none
  data := []

/-- The tables of `db` with one container type and these containers. -/
def withContainers (db : Db) (containers : List StoredContainer) : ContainerTables where
  db := db
  containers := containers.foldl Table.insert .empty
  types := .insert .empty ⟨"40HC", "40HC"⟩
  inactiveTypes := []
  requirements := []
  referenced := fun _ => []

/-- A body that moves the container on, and one that numbers it. -/
def gateIn : ContainerBody := { ContainerBody.empty with id := .value (.id 1), status := .value "GATE_IN" }

def numbered : ContainerBody :=
  { ContainerBody.empty with id := .value (.id 1), containerNumber := .value "mscu1234567" }

/-- The prepared row takes its number. -/
theorem updatedPartially_numbered :
    ∃ r, addContainer (withContainers (orderWith []) [preparedContainer 1 none]) "SO-1" numbered = .ok r ∧
      ∃ c c', (withContainers (orderWith []) [preparedContainer 1 none]).containers.get? 1 = some c ∧
        r.1.containers.get? 1 = some c' ∧
        UpdatedPartially (withContainers (orderWith []) [preparedContainer 1 none]) r.1 1 c c' numbered := by
  obtain ⟨r, hr⟩ := isOk_eq_true.1 (show (addContainer (withContainers (orderWith []) [preparedContainer 1 none]) "SO-1"
    numbered).isOk = true by decide +kernel)
  obtain ⟨c, c', hc, hc', -, hiff⟩ := updatedPartially_iff _ _ _ 1 r rfl hr
  obtain rfl : preparedContainer 1 none = c := Option.some.inj hc
  exact ⟨r, hr, _, c', hc, hc', hiff.2 ⟨fun ha => (by cases ha), fun _ => rfl, fun _ => rfl, fun _ => rfl, fun _ => rfl, fun _ => rfl⟩⟩

/-- The identified row loses its number to a change of its status. -/
theorem number_dropped :
    ∃ r, addContainer (withContainers (orderWith []) [preparedContainer 1 (some "MSCU1234567")]) "SO-1" gateIn = .ok r ∧
      ∃ c c', (withContainers (orderWith []) [preparedContainer 1 (some "MSCU1234567")]).containers.get? 1 = some c ∧
        r.1.containers.get? 1 = some c' ∧ c.containerNumber = some "MSCU1234567" ∧ c'.containerNumber = none ∧
        ¬UpdatedPartially (withContainers (orderWith []) [preparedContainer 1 (some "MSCU1234567")]) r.1 1 c c' gateIn := by
  obtain ⟨r, hr, hnumber⟩ := okAnd_eq_true.1 (show okAnd (addContainer (withContainers (orderWith [])
    [preparedContainer 1 (some "MSCU1234567")]) "SO-1" gateIn) (fun r =>
      (r.1.containers.get? 1).map StoredContainer.containerNumber = some none) = true by decide +kernel)
  obtain ⟨c', hc', hnone⟩ := Option.map_eq_some_iff.1 hnumber
  refine ⟨r, hr, preparedContainer 1 (some "MSCU1234567"), c', rfl, hc', rfl, hnone, fun h => ?_⟩
  have hkept := h.number rfl
  rw [hnone] at hkept
  cases hkept

end LcsSystem
