import LcsSystem.Operations.OrderSteps
import LcsSystem.Lib.Indexes
import LcsSystem.Lib.Transition

/-!
# The steps of an order over any run

Requests on movements and milestones come one after another, between any other commits on the orders; an order that is
deleted takes its steps with it.
-/

namespace LcsSystem.OrderSteps
open Relational Checks Schemas Transition

/-! ## Runs -/

inductive StepRequest
  | saveMovement (directory : Directory) (identifier : String) (payload : Payload)
  | deleteMovements (identifier : String) (ids : List ℕ)
  | saveMilestone (directory : Directory) (identifier : String) (payload : Payload)
  | deleteMilestones (identifier : String) (ids : List ℕ)
  | commitOrders (orders : Table StepOrder)

namespace StepRequest

/-- The tables after the request, or why it is refused. -/
def result (db : StepDb) : StepRequest → Result StepDb
  | saveMovement directory identifier payload => Prod.fst <$> OrderSteps.saveMovement directory db identifier payload
  | deleteMovements identifier ids => Prod.fst <$> OrderSteps.deleteMovements db identifier ids
  | saveMilestone directory identifier payload => Prod.fst <$> OrderSteps.saveMilestone directory db identifier payload
  | deleteMilestones identifier ids => Prod.fst <$> OrderSteps.deleteMilestones db identifier ids
  | commitOrders orders => .ok {
      orders := orders
      movements := db.movements.erase fun _ row => (orders.get? row.serviceOrderId).isNone
      milestones := db.milestones.erase fun _ row => (orders.get? row.serviceOrderId).isNone }

/-- The leg that a request names. -/
def movementId : StepRequest → Option ℕ
  | saveMovement _ _ payload => (intOrNone (value payload "id")).bind Int.toNat?
  | _ => none

/-- The milestone that a request names. -/
def milestoneId : StepRequest → Option ℕ
  | saveMilestone _ _ payload => (intOrNone (value payload "id")).bind Int.toNat?
  | _ => none

end StepRequest

def stepOf (db : StepDb) (request : StepRequest) : StepDb :=
  match request.result db with
  | .ok db' => db'
  | .error _ => db

/-- What tells the legs of an order apart. -/
def movementKey (row : ServiceOrderMovement) : Option (ℕ × ℤ) := some (row.serviceOrderId, row.sequenceNo)

/-- What tells the milestones of an order apart. -/
def milestoneKey (row : ServiceOrderMilestone) : Option (ℕ × String) := some (row.serviceOrderId, row.milestoneCode)

/-- Each order has its legs under numbers of their own, from 1, and its milestones under codes of their own; every status is
one of the vocabulary. -/
structure InOrder (db : StepDb) : Prop where
  numbers : Table.UniqueBy movementKey db.movements
  codes : Table.UniqueBy milestoneKey db.milestones
  movements : ∀ i m, db.movements.get? i = some m → 1 ≤ m.sequenceNo ∧ m.status ∈ movementStatuses
  milestones : ∀ i m, db.milestones.get? i = some m → 1 ≤ m.sequenceNo ∧ m.milestoneCode ≠ "" ∧ m.status ∈ milestoneStatuses

/-! ## What the schemas pass -/

theorem movementWriteSchema_sound : movementWriteSchema.Sound where
  keys := by decide
  aliases := by decide
  apart := by decide
  rules := by simp [movementWriteSchema]

theorem milestoneWriteSchema_sound : milestoneWriteSchema.Sound where
  keys := by decide
  aliases := by decide
  apart := by decide
  rules := by simp [milestoneWriteSchema]

section
variable {readers : Readers} {schema : RecordSchema} {payload data : Payload} {partially : Bool}

/-- A value under a field's key has been normalised. -/
theorem normalize_of_validate (sound : schema.Sound) {s : FieldSpec} (hs : s ∈ schema.fields)
    (h : schema.validate readers payload partially = .ok data) {v : PyValue} (hv : data.lookup s.key = some v) :
    ∃ raw, normalize readers s raw = .ok v := by
  obtain ⟨herrors, rfl⟩ := validate_ok_iff.1 h
  obtain ⟨found, hread⟩ := fieldErrors_eq_nil.1 (errors_eq_nil.1 herrors).2.1 s hs
  cases found with
  | none =>
    rw [lookup_normalized_absent sound hs (read_eq_none.1 hread).1 (.inl rfl)] at hv
    cases hv
  | some entry =>
    obtain ⟨source, v'⟩ := entry
    rw [lookup_normalized_key sound hs hread, Option.some.injEq] at hv
    exact ⟨_, hv ▸ (read_eq_some.1 hread).2⟩

theorem integerValue_ok {spec : FieldSpec} {raw v : PyValue} (h : integerValue spec raw = .ok v) :
    ∃ q : ℚ, q.den = 1 ∧ (∀ b ∈ spec.minimum, b.value ≤ q) ∧ v = .int q.num := by
  simp only [integerValue, enforceRange, bind_eq_ok, check_eq_ok, pure_eq_ok] at h
  obtain ⟨q, -, -, hwhole, -, ⟨-, hrange, -⟩, rfl⟩ := h
  exact ⟨q, hwhole, hrange, rfl⟩

/-- A number that the schemas pass is positive. -/
theorem positive_of_validate (sound : schema.Sound) (hs : sequenceSpec ∈ schema.fields)
    (h : schema.validate readers payload partially = .ok data) {n : ℤ}
    (hn : positiveInt (value data "sequenceNo") = some n) : 1 ≤ n := by
  obtain ⟨m, hm⟩ : ∃ m, value data "sequenceNo" = .int m := by
    cases hvalue : value data "sequenceNo" <;> simp [hvalue, positiveInt] at hn ⊢
  rw [hm, positiveInt, Option.some.injEq] at hn
  have hlookup : data.lookup sequenceSpec.key = some (.int n) := by
    rw [value] at hm
    cases hfound : data.lookup sequenceSpec.key with
    | none =>
      rw [show "sequenceNo" = sequenceSpec.key from rfl, hfound] at hm
      cases hm
    | some v =>
      rw [show "sequenceNo" = sequenceSpec.key from rfl, hfound, Option.getD_some] at hm
      rw [hm, hn]
  obtain ⟨raw, hraw⟩ := normalize_of_validate sound hs h hlookup
  unfold Schemas.normalize at hraw
  split at hraw
  · simp [blankValue, sequenceSpec] at hraw
  · obtain ⟨q, hwhole, hrange, hint⟩ := integerValue_ok hraw
    have hone : (1 : ℚ) ≤ q := hrange _ rfl
    rw [← Rat.num_div_den q, hwhole, Nat.cast_one, div_one] at hone
    obtain rfl : n = q.num := by simpa using hint
    exact_mod_cast hone

/-- A field that is sent under none of its names has no value. -/
theorem value_of_unsent (sound : schema.Sound) {s : FieldSpec} (hs : s ∈ schema.fields)
    (h : schema.validate readers payload partially = .ok data) (hsent : s.source payload = none) :
    value data s.key = .none := by
  obtain ⟨-, rfl⟩ := validate_ok_iff.1 h
  rw [value, lookup_normalized_absent sound hs hsent (.inl rfl)]
  rfl

/-- A key that no field has is as it was sent. -/
theorem value_id_of_validate (h : schema.validate readers payload partially = .ok data)
    (hid : ∀ s ∈ schema.fields, "id" ≠ s.key ∧ "id" ∉ s.aliases) : value data "id" = value payload "id" := by
  obtain ⟨-, rfl⟩ := validate_ok_iff.1 h
  rw [value, value, lookup_normalized_other]
  intro s hs source v hread
  refine ⟨(hid s hs).1, ?_⟩
  rintro rfl
  rcases mem_of_source (read_eq_some.1 hread).1 with hkey | halias
  · exact (hid s hs).1 hkey
  · exact (hid s hs).2 halias

end

/-! ## The checks of a request -/

section
variable {directory : Directory} {db : StepDb} {data : Payload} {identifier : String} {payload : Payload}
  {movement m : ServiceOrderMovement}

theorem normalizeStatus_mem (statuses : List String) (default : String) (sent : PyValue) :
    normalizeStatus statuses default sent ∈ statuses ∨ normalizeStatus statuses default sent = default := by
  unfold normalizeStatus
  split
  · split
    · next hmem => exact .inl hmem
    · exact .inr rfl
  · exact .inr rfl

/-- The columns of a leg but for its order and its number. -/
theorem movementColumns_ok (h : movementColumns directory data movement = .ok m) :
    m.serviceOrderId = movement.serviceOrderId ∧ m.sequenceNo = movement.sequenceNo ∧
      (m.status ∈ movementStatuses ∨ m.status = movement.status) := by
  simp only [movementColumns, bind_eq_ok, pure_eq_ok] at h
  obtain ⟨transportTypeId, -, rfl⟩ := h
  refine ⟨rfl, rfl, ?_⟩
  have hbase : (if movement.status = "" then "PLANNED" else movement.status) ∈ movementStatuses ∨
      (if movement.status = "" then "PLANNED" else movement.status) = movement.status := by
    split
    · exact .inl (by decide)
    · exact .inr rfl
  rcases normalizeStatus_mem movementStatuses (if movement.status = "" then "PLANNED" else movement.status)
    (value data "status") with hmem | hstays
  · exact .inl hmem
  · rw [← hstays] at hbase
    exact hbase

theorem sequenceTaken_eq_false {orderId : ℕ} {self : Option ℕ} {n : ℤ} : sequenceTaken db orderId self n = false ↔
    ∀ i m, db.movements.get? i = some m → m.serviceOrderId = orderId → m.sequenceNo = n → self = some i := by
  simp only [sequenceTaken, List.any_eq_false, Bool.and_eq_true, beq_iff_eq, bne_iff_ne, Prod.forall, movementsOf,
    Table.mem_select, not_and, not_not, and_imp]

/-- A number above all others is free. -/
theorem le_highestSequence {orderId i : ℕ} (hm : db.movements.get? i = some m) (horder : m.serviceOrderId = orderId) :
    m.sequenceNo ≤ highestSequence db orderId := by
  have hmem : m.sequenceNo ∈ (movementsOf db orderId).map fun row => row.2.sequenceNo :=
    List.mem_map.2 ⟨(i, m), Table.mem_select.2 ⟨hm, by simpa using horder⟩, rfl⟩
  unfold highestSequence
  cases hmax : ((movementsOf db orderId).map fun row => row.2.sequenceNo).max? with
  | none => rw [List.max?_eq_none_iff.1 hmax] at hmem; cases hmem
  | some n => exact (List.max?_eq_some_iff.1 hmax).2 _ hmem

theorem ownRow_eq_some {α : Type} {t : Table α} {owner : α → ℕ} {orderId : ℕ} {id : ℤ} {row : ℕ × α} :
    ownRow t owner orderId id = some row ↔ (row.1 : ℤ) = id ∧ t.get? row.1 = some row.2 ∧ owner row.2 = orderId := by
  obtain ⟨i, a⟩ := row
  simp only [ownRow]
  split
  · next hneg =>
    simp only [reduceCtorEq, false_iff]
    rintro ⟨rfl, -⟩
    omega
  · simp only [Option.map_eq_some_iff, Option.filter_eq_some_iff, beq_iff_eq, Prod.mk.injEq]
    constructor
    · rintro ⟨b, ⟨hget, horder⟩, rfl, rfl⟩
      exact ⟨by omega, hget, horder⟩
    · rintro ⟨rfl, hget, horder⟩
      exact ⟨a, ⟨hget, horder⟩, rfl, rfl⟩

theorem newSequence_ok {orderId : ℕ} {n : ℤ} (h : newSequence db orderId data = .ok n) :
    0 < n ∧ sequenceTaken db orderId none n = false ∧
      n = (positiveInt (value data "sequenceNo")).getD (highestSequence db orderId + 1) := by
  simp only [newSequence, bind_eq_ok, check_eq_ok, pure_eq_ok] at h
  obtain ⟨-, hpositive, -, hfree, rfl⟩ := h
  exact ⟨hpositive, hfree, rfl⟩

theorem renumbered_ok {id : ℕ} {n : ℤ} (h : renumbered db id movement data = .ok n) : n = movement.sequenceNo ∨
    positiveInt (value data "sequenceNo") = some n ∧ sequenceTaken db movement.serviceOrderId (some id) n = false := by
  simp only [renumbered, bind_eq_ok, check_eq_ok, pure_eq_ok] at h
  obtain ⟨-, hfree, rfl⟩ := h
  cases hsent : positiveInt (value data "sequenceNo") with
  | none => exact .inl rfl
  | some n =>
    rw [hsent] at hfree
    exact hfree.imp_right fun hfree => ⟨rfl, hfree⟩

/-- A number that is not taken is free for the row that the check leaves out. -/
theorem free_of_sequenceTaken {self : Option ℕ} {id : ℕ} (hself : self = none ∨ self = some id)
    (hfree : sequenceTaken db m.serviceOrderId self m.sequenceNo = false) :
    Table.Free movementKey db.movements id m := by
  intro i b k hb hm hk
  cases hm
  simp only [movementKey, Option.some.injEq, Prod.mk.injEq] at hk
  have hexcept := sequenceTaken_eq_false.1 hfree i b hb hk.1 hk.2
  rcases hself with rfl | rfl
  · cases hexcept
  · exact (Option.some.inj hexcept).symm

/-- A code that no milestone of the order has is free. -/
theorem free_of_codeTaken {orderId : ℕ} {code : String} {milestone : ServiceOrderMilestone} {id : ℕ}
    (hfree : ((milestonesOf db orderId).any fun row => row.2.milestoneCode == code) = false)
    (horder : milestone.serviceOrderId = orderId) (hcode : milestone.milestoneCode = code) :
    Table.Free milestoneKey db.milestones id milestone := by
  intro i b k hb hm hk
  cases hm
  simp only [milestoneKey, Option.some.injEq, Prod.mk.injEq, horder, hcode] at hk
  have hmem : (i, b) ∈ milestonesOf db orderId := Table.mem_select.2 ⟨hb, by simpa using hk.1⟩
  simp only [List.any_eq_false, beq_iff_eq] at hfree
  exact absurd hk.2 (hfree _ hmem)

theorem toNat?_of_ownRow {α : Type} {t : Table α} {owner : α → ℕ} {orderId : ℕ} {id : ℤ} {row : ℕ × α}
    (h : ownRow t owner orderId id = some row) : id.toNat? = some row.1 := by
  rw [← (ownRow_eq_some.1 h).1]
  rfl

/-! ## What a request writes -/

def Added (row : ServiceOrderMovement) : Prop := 1 ≤ row.sequenceNo ∧ row.status ∈ movementStatuses

/-- A leg keeps its order. -/
def Rewritten (old row : ServiceOrderMovement) : Prop :=
  row.serviceOrderId = old.serviceOrderId ∧ (1 ≤ row.sequenceNo ∨ row.sequenceNo = old.sequenceNo) ∧
    (row.status ∈ movementStatuses ∨ row.status = old.status)

def MilestoneAdded (row : ServiceOrderMilestone) : Prop :=
  1 ≤ row.sequenceNo ∧ row.milestoneCode ≠ "" ∧ row.status ∈ milestoneStatuses

/-- A milestone keeps its order and its code. -/
def MilestoneRewritten (old row : ServiceOrderMilestone) : Prop :=
  row.serviceOrderId = old.serviceOrderId ∧ row.milestoneCode = old.milestoneCode ∧
    (1 ≤ row.sequenceNo ∨ row.sequenceNo = old.sequenceNo) ∧ (row.status ∈ milestoneStatuses ∨ row.status = old.status)

theorem saveMovement_served {db' : StepDb} {row : ℕ × ServiceOrderMovement}
    (h : saveMovement directory db identifier payload = .ok (db', row)) :
    Table.Served movementKey Added Rewritten ((intOrNone (value payload "id")).bind Int.toNat?) db.movements db'.movements ∧
      db'.milestones = db.milestones := by
  simp only [saveMovement, bind_eq_ok] at h
  obtain ⟨order, -, -, -, data, hdata, h⟩ := h
  rw [← value_id_of_validate hdata (by decide)]
  cases hnamed : intOrNone (value data "id") with
  | none =>
    simp only [hnamed, bind_eq_ok, pure_eq_ok, Prod.mk.injEq] at h
    obtain ⟨n, hn, m, hm, -, -, rfl, rfl⟩ := h
    obtain ⟨hpositive, hfree, -⟩ := newSequence_ok hn
    obtain ⟨horder, hnumber, hstatus⟩ := movementColumns_ok hm
    refine ⟨.added m (free_of_sequenceTaken (.inl rfl) ?_) ⟨?_, ?_⟩, rfl⟩
    · rw [horder, hnumber]
      exact hfree
    · rw [hnumber]
      exact hpositive
    · rcases hstatus with hstatus | hstatus
      · exact hstatus
      · rw [hstatus]
        exact List.mem_cons_self
  | some id =>
    simp only [hnamed, bind_eq_ok, require_eq_ok, pure_eq_ok, Prod.mk.injEq] at h
    obtain ⟨stored, hstored, n, hn, m, hm, -, -, rfl, rfl⟩ := h
    obtain ⟨horder, hnumber, hstatus⟩ := movementColumns_ok hm
    refine ⟨.changed stored.1 stored.2 m (toNat?_of_ownRow hstored) (ownRow_eq_some.1 hstored).2.1 ?_ ⟨horder, ?_, hstatus⟩, rfl⟩
    · rcases renumbered_ok hn with hsame | ⟨-, hfree⟩
      · exact .inl (by rw [movementKey, movementKey, horder, hnumber, hsame])
      · exact .inr (free_of_sequenceTaken (.inr rfl) (by rwa [horder, hnumber]))
    · rw [hnumber]
      exact ((renumbered_ok hn).imp_right fun hsent =>
        positive_of_validate movementWriteSchema_sound List.mem_cons_self hdata hsent.1).symm

/-- A number that is sent, else the default. -/
theorem sequence_spec {n : ℤ} (hsent : ∀ k, positiveInt (value data "sequenceNo") = some k → 1 ≤ k) :
    1 ≤ (positiveInt (value data "sequenceNo")).getD n ∨ (positiveInt (value data "sequenceNo")).getD n = n := by
  cases hvalue : positiveInt (value data "sequenceNo") with
  | none => exact .inr rfl
  | some k => exact .inl (hsent k hvalue)

theorem newMilestone_added (hsent : ∀ k, positiveInt (value data "sequenceNo") = some k → 1 ≤ k) (orderId : ℕ) {code : String}
    (hcode : code ≠ "") (name : String) : MilestoneAdded (newMilestone orderId code name data) := by
  refine ⟨?_, hcode, ?_⟩
  · rcases sequence_spec hsent with hpositive | hdefault
    · exact hpositive
    · exact hdefault.ge
  · rcases normalizeStatus_mem milestoneStatuses "PENDING" (value data "status") with hmem | hdefault
    · exact hmem
    · show normalizeStatus milestoneStatuses "PENDING" (value data "status") ∈ milestoneStatuses
      rw [hdefault]
      exact List.mem_cons_self

theorem milestoneColumns_rewritten (hsent : ∀ k, positiveInt (value data "sequenceNo") = some k → 1 ≤ k) (name : String)
    (milestone : ServiceOrderMilestone) : MilestoneRewritten milestone (milestoneColumns name data milestone) :=
  ⟨rfl, rfl, sequence_spec hsent, normalizeStatus_mem milestoneStatuses milestone.status (value data "status")⟩

theorem saveMilestone_served {db' : StepDb} {row : ℕ × ServiceOrderMilestone}
    (h : saveMilestone directory db identifier payload = .ok (db', row)) :
    Table.Served milestoneKey MilestoneAdded MilestoneRewritten ((intOrNone (value payload "id")).bind Int.toNat?)
      db.milestones db'.milestones ∧ db'.movements = db.movements := by
  simp only [saveMilestone, bind_eq_ok] at h
  obtain ⟨order, -, -, -, data, hdata, h⟩ := h
  have hsent (n : ℤ) : positiveInt (value data "sequenceNo") = some n → 1 ≤ n :=
    positive_of_validate milestoneWriteSchema_sound (by simp [milestoneWriteSchema]) hdata
  rw [← value_id_of_validate hdata (by decide)]
  cases hnamed : intOrNone (value data "id") with
  | none =>
    simp only [hnamed, bind_eq_ok, check_eq_ok, pure_eq_ok, Prod.mk.injEq] at h
    obtain ⟨-, hcode, -, hfree, -, -, rfl, rfl⟩ := h
    exact ⟨.added _ (free_of_codeTaken hfree rfl rfl) (newMilestone_added hsent order.1 hcode _), rfl⟩
  | some id =>
    simp only [hnamed, bind_eq_ok, require_eq_ok, check_eq_ok, pure_eq_ok, Prod.mk.injEq] at h
    obtain ⟨stored, hstored, -, -, -, -, rfl, rfl⟩ := h
    exact ⟨.changed stored.1 stored.2 _ (toNat?_of_ownRow hstored) (ownRow_eq_some.1 hstored).2.1 (.inl rfl)
      (milestoneColumns_rewritten hsent _ _), rfl⟩

theorem deleteMovements_served {db' : StepDb} {ids : List ℕ} {count : ℕ} (named : Option ℕ)
    (h : deleteMovements db identifier ids = .ok (db', count)) :
    Table.Served movementKey Added Rewritten named db.movements db'.movements ∧ db'.milestones = db.milestones := by
  simp only [deleteMovements, bind_eq_ok, pure_eq_ok, Prod.mk.injEq] at h
  obtain ⟨order, -, rfl, -⟩ := h
  exact ⟨.erased fun id (row : ServiceOrderMovement) => row.serviceOrderId == order.1 && ids.contains id, rfl⟩

theorem deleteMilestones_served {db' : StepDb} {ids : List ℕ} {count : ℕ} (named : Option ℕ)
    (h : deleteMilestones db identifier ids = .ok (db', count)) :
    Table.Served milestoneKey MilestoneAdded MilestoneRewritten named db.milestones db'.milestones ∧
      db'.movements = db.movements := by
  simp only [deleteMilestones, bind_eq_ok, pure_eq_ok, Prod.mk.injEq] at h
  obtain ⟨order, -, rfl, -⟩ := h
  exact ⟨.erased fun id (row : ServiceOrderMilestone) => row.serviceOrderId == order.1 && ids.contains id, rfl⟩

end

/-- **Every request**, accepted or refused, on both tables. -/
theorem stepOf_served (db : StepDb) (request : StepRequest) :
    Table.Served movementKey Added Rewritten request.movementId db.movements (stepOf db request).movements ∧
      Table.Served milestoneKey MilestoneAdded MilestoneRewritten request.milestoneId db.milestones
        (stepOf db request).milestones := by
  unfold stepOf
  cases hresult : request.result db with
  | error e => exact ⟨.kept, .kept⟩
  | ok db' =>
    show Table.Served _ _ _ _ _ db'.movements ∧ Table.Served _ _ _ _ _ db'.milestones
    cases request with
    | saveMovement directory identifier payload =>
      simp only [StepRequest.result, map_eq_ok] at hresult
      obtain ⟨⟨_, row⟩, hsave, rfl⟩ := hresult
      obtain ⟨hmovements, hmilestones⟩ := saveMovement_served hsave
      exact ⟨hmovements, hmilestones ▸ .kept⟩
    | saveMilestone directory identifier payload =>
      simp only [StepRequest.result, map_eq_ok] at hresult
      obtain ⟨⟨_, row⟩, hsave, rfl⟩ := hresult
      obtain ⟨hmilestones, hmovements⟩ := saveMilestone_served hsave
      exact ⟨hmovements ▸ .kept, hmilestones⟩
    | deleteMovements identifier ids =>
      simp only [StepRequest.result, map_eq_ok] at hresult
      obtain ⟨⟨_, count⟩, hdelete, rfl⟩ := hresult
      obtain ⟨hmovements, hmilestones⟩ := deleteMovements_served none hdelete
      exact ⟨hmovements, hmilestones ▸ .kept⟩
    | deleteMilestones identifier ids =>
      simp only [StepRequest.result, map_eq_ok] at hresult
      obtain ⟨⟨_, count⟩, hdelete, rfl⟩ := hresult
      obtain ⟨hmilestones, hmovements⟩ := deleteMilestones_served none hdelete
      exact ⟨hmovements ▸ .kept, hmilestones⟩
    | commitOrders orders =>
      cases hresult
      exact ⟨.erased fun _ (row : ServiceOrderMovement) => (orders.get? row.serviceOrderId).isNone,
        .erased fun _ (row : ServiceOrderMilestone) => (orders.get? row.serviceOrderId).isNone⟩

/-! ## Any run -/

theorem inOrder_empty (orders : Table StepOrder) : InOrder ⟨orders, .empty, .empty⟩ where
  numbers := Table.uniqueBy_empty
  codes := Table.uniqueBy_empty
  movements := by
    intro i m hm
    cases hm
  milestones := by
    intro i m hm
    cases hm

theorem inOrder_step (db : StepDb) (request : StepRequest) (h : InOrder db) : InOrder (stepOf db request) where
  numbers := (stepOf_served db request).1.uniqueBy h.numbers
  codes := (stepOf_served db request).2.uniqueBy h.codes
  movements := by
    refine (stepOf_served db request).1.forall_rows (fun row hrow => hrow) ?_ h.movements
    rintro old row ⟨-, hnumber, hstatus⟩ hold
    refine ⟨?_, ?_⟩
    · rcases hnumber with hnumber | hsame
      · exact hnumber
      · exact hsame.symm ▸ hold.1
    · rcases hstatus with hmem | hsame
      · exact hmem
      · exact hsame.symm ▸ hold.2
  milestones := by
    refine (stepOf_served db request).2.forall_rows (fun row hrow => hrow) ?_ h.milestones
    rintro old row ⟨-, hcode, hnumber, hstatus⟩ hold
    refine ⟨?_, hcode.symm ▸ hold.2.1, ?_⟩
    · rcases hnumber with hnumber | hsame
      · exact hnumber
      · exact hsame.symm ▸ hold.1
    · rcases hstatus with hmem | hsame
      · exact hmem
      · exact hsame.symm ▸ hold.2.2

instance sequenceOrder_total : Std.Total sequenceOrder where
  total a b := by
    unfold sequenceOrder
    omega

instance sequenceOrder_trans : IsTrans (ℕ × ServiceOrderMovement) sequenceOrder where
  trans a b c := by
    unfold sequenceOrder
    omega

theorem mem_listMovements {db : StepDb} {orderId i : ℕ} {m : ServiceOrderMovement} :
    (i, m) ∈ listMovements db orderId ↔ db.movements.get? i = some m ∧ m.serviceOrderId = orderId := by
  rw [listMovements, List.mem_insertionSort, movementsOf, Table.mem_select, beq_iff_eq]

/-- No two legs of an order are listed under one number. -/
theorem listMovements_increasing {db : StepDb} (h : Table.UniqueBy movementKey db.movements) (orderId : ℕ) :
    (listMovements db orderId).Pairwise fun a b => a.2.sequenceNo < b.2.sequenceNo := by
  have hnodup : (listMovements db orderId).Nodup :=
    (List.perm_insertionSort sequenceOrder _).nodup_iff.2 ((List.Nodup.of_map _ db.movements.nodup).filter _)
  have hordered : (listMovements db orderId).Pairwise sequenceOrder := List.pairwise_insertionSort sequenceOrder _
  refine (hordered.and hnodup).imp_of_mem ?_
  rintro ⟨i, a⟩ ⟨j, b⟩ ha hb ⟨hle, hne⟩
  obtain ⟨hgeta, hordera⟩ := mem_listMovements.1 ha
  obtain ⟨hgetb, horderb⟩ := mem_listMovements.1 hb
  rcases hle with hlt | ⟨hsame, -⟩
  · exact hlt
  · have hij : i = j := h i j a b (orderId, a.sequenceNo) hgeta hgetb (by rw [movementKey, hordera])
      (by rw [movementKey, horderb, ← hsame])
    subst hij
    rw [hgeta, Option.some.injEq] at hgetb
    exact absurd (congrArg _ hgetb) hne

/-- **The steps of every order stay in order**: over any run the legs of an order are listed under numbers that increase from 1,
its milestones have codes of their own, and every status is one of the vocabulary. -/
theorem steps_in_order {db : StepDb} (h : InOrder db) (requests : List StepRequest) :
    InOrder (run stepOf db requests) ∧ ∀ orderId, (listMovements (run stepOf db requests) orderId).Pairwise
      fun a b => a.2.sequenceNo < b.2.sequenceNo := by
  have hrun : InOrder (run stepOf db requests) := run_invariant InOrder inOrder_step requests h
  exact ⟨hrun, listMovements_increasing hrun.numbers⟩

/-! Two legs, one of them sent under a number that is taken, then a milestone. -/

def roadOnly : Directory where
  readers := plainReaders
  printed := fun _ => ""
  transportType := fun _ => .ok none
  hasTransportType := fun _ => false
  hasTransportAsset := fun _ => false

def openOrder : StepDb := ⟨Table.empty.insert ⟨"SO-0001", "ACTIVE"⟩, .empty, .empty⟩

def legRequests : List StepRequest :=
  [.saveMovement roadOnly "SO-0001" [("sequenceNo", .text "4")],
    .saveMovement roadOnly "SO-0001" [("sequence_no", .int 4)],
    .saveMovement roadOnly "1" [("status", .text "in transit")],
    .saveMovement roadOnly "1" [("id", .int 1), ("sequenceNo", .int 9)],
    .saveMilestone roadOnly "SO-0001" [("milestoneCode", .text "gate in")]]

theorem steps_in_order_legRequests :
    ((listMovements (run stepOf openOrder legRequests) 1).map fun row => (row.1, row.2.sequenceNo, row.2.status)) =
        [(2, 5, "IN_TRANSIT"), (1, 9, "PLANNED")] ∧
      (listMovements (run stepOf openOrder legRequests) 1).Pairwise fun a b => a.2.sequenceNo < b.2.sequenceNo :=
  ⟨by decide +kernel, (steps_in_order (inOrder_empty _) legRequests).2 1⟩

/-- **What no request names stays**: over any run, under the keys that had been handed out, there are only steps that were there
before, each with its order and a milestone with its code, and exactly as it was where no request of the run names it. -/
theorem unnamed_steps_stay (db : StepDb) (requests : List StepRequest) :
    (∀ i m', i < db.movements.nextId → (run stepOf db requests).movements.get? i = some m' →
      ∃ m, db.movements.get? i = some m ∧ m'.serviceOrderId = m.serviceOrderId ∧
        ((∀ request ∈ requests, request.movementId ≠ some i) → m' = m)) ∧
    (∀ i m', i < db.milestones.nextId → (run stepOf db requests).milestones.get? i = some m' →
      ∃ m, db.milestones.get? i = some m ∧ (m'.serviceOrderId = m.serviceOrderId ∧ m'.milestoneCode = m.milestoneCode) ∧
        ((∀ request ∈ requests, request.milestoneId ≠ some i) → m' = m)) := by
  constructor
  · intro i m' hi hm'
    refine Table.Served.run_of_lt (fun db request => (stepOf_served db request).1)
      (fun m m' => m'.serviceOrderId = m.serviceOrderId) (fun m => rfl) ?_ (fun m m' h => h.1) requests db hi hm'
    intro a b c hab hbc
    exact hbc.trans hab
  · intro i m' hi hm'
    refine Table.Served.run_of_lt (fun db request => (stepOf_served db request).2)
      (fun m m' => m'.serviceOrderId = m.serviceOrderId ∧ m'.milestoneCode = m.milestoneCode) (fun m => ⟨rfl, rfl⟩) ?_
      (fun m m' h => ⟨h.1, h.2.1⟩) requests db hi hm'
    intro a b c hab hbc
    exact ⟨hbc.1.trans hab.1, hbc.2.trans hab.2⟩

/-! ## A leg without a number -/

section
variable {directory : Directory} {db db' : StepDb} {identifier : String} {payload : Payload} {row : ℕ × ServiceOrderMovement}
  {m : ServiceOrderMovement}

/-- A leg numbered after all others of its order is listed after them. -/
theorem listMovements_insert (hnumber : m.sequenceNo = highestSequence db m.serviceOrderId + 1) :
    listMovements { db with movements := db.movements.insert m } m.serviceOrderId =
      listMovements db m.serviceOrderId ++ [(db.movements.nextId, m)] := by
  have hselect : movementsOf { db with movements := db.movements.insert m } m.serviceOrderId =
      movementsOf db m.serviceOrderId ++ [(db.movements.nextId, m)] := by
    rw [movementsOf, Table.select_insert, if_pos (beq_self_eq_true _)]
    rfl
  rw [listMovements, hselect]
  refine insertionSort_append ?_
  rintro ⟨i, a⟩ ha
  obtain ⟨hget, howner⟩ := Table.mem_select.1 ha
  have hlt : a.sequenceNo < m.sequenceNo := by
    have hle := le_highestSequence hget (beq_iff_eq.1 howner)
    omega
  exact .inl hlt

/-- The legs of the other orders stay. -/
theorem listMovements_insert_of_ne {orderId : ℕ} (hne : orderId ≠ m.serviceOrderId) :
    listMovements { db with movements := db.movements.insert m } orderId = listMovements db orderId := by
  have hother : (m.serviceOrderId == orderId) = false := beq_false_of_ne hne.symm
  rw [listMovements, listMovements, movementsOf, Table.select_insert_of_not db.movements hother]
  rfl

/-- **A new leg that is sent without a number is listed last**; every other leg, and every milestone, stays as it is. -/
theorem saveMovement_listed_last (hid : intOrNone (value payload "id") = none)
    (hsent : payload.lookup "sequenceNo" = none ∧ payload.lookup "sequence_no" = none)
    (h : saveMovement directory db identifier payload = .ok (db', row)) :
    listMovements db' row.2.serviceOrderId = listMovements db row.2.serviceOrderId ++ [row] ∧
      (∀ orderId, orderId ≠ row.2.serviceOrderId → listMovements db' orderId = listMovements db orderId) ∧
      db'.milestones = db.milestones := by
  simp only [saveMovement, bind_eq_ok] at h
  obtain ⟨order, -, -, -, data, hdata, h⟩ := h
  rw [← value_id_of_validate hdata (by decide)] at hid
  simp only [hid, bind_eq_ok, pure_eq_ok, Prod.mk.injEq] at h
  obtain ⟨n, hn, m, hm, -, -, rfl, rfl⟩ := h
  obtain ⟨horder, hnumber, -⟩ := movementColumns_ok hm
  have hsource : sequenceSpec.source payload = none := by
    rw [source_eq_none]
    exact ⟨hsent.1, by simpa [sequenceSpec] using hsent.2⟩
  have hunsent : value data "sequenceNo" = .none :=
    value_of_unsent movementWriteSchema_sound List.mem_cons_self hdata hsource
  have hhighest : m.sequenceNo = highestSequence db m.serviceOrderId + 1 := by
    rw [horder, hnumber, (newSequence_ok hn).2.2, hunsent]
    rfl
  exact ⟨listMovements_insert hhighest, fun orderId hne => listMovements_insert_of_ne hne, rfl⟩

end

theorem saveMovement_listed_last_ten : ∃ db' row,
    saveMovement roadOnly (run stepOf openOrder legRequests) "SO-0001" [("notes", .text "by night")] = .ok (db', row) ∧
      row.2.sequenceNo = 10 ∧
      listMovements db' row.2.serviceOrderId = listMovements (run stepOf openOrder legRequests) row.2.serviceOrderId ++ [row] := by
  have hnumber : (saveMovement roadOnly (run stepOf openOrder legRequests) "SO-0001"
      [("notes", .text "by night")]).toOption.map (fun saved => saved.2.2.sequenceNo) = some 10 := by decide +kernel
  cases hresult : saveMovement roadOnly (run stepOf openOrder legRequests) "SO-0001" [("notes", .text "by night")] with
  | error e =>
    rw [hresult] at hnumber
    cases hnumber
  | ok saved =>
    rw [hresult] at hnumber
    exact ⟨saved.1, saved.2, rfl, Option.some.inj hnumber,
      (saveMovement_listed_last (by decide +kernel) (by decide +kernel) hresult).1⟩

end LcsSystem.OrderSteps
