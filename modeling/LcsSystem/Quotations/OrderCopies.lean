import LcsSystem.Quotations.Conversion

/-!
# What a conversion copies

The order of a converted revision has rows of its own: its pricing with the lines, the route and the
containers. `OrderCopies` compares them with the rows of the revision, read back under the order's key;
`createServiceOrderFromQuotation_copies` shows it where no row refers to a key yet to come (`OrderKeys`).
-/

namespace LcsSystem
open Relational DecimalArith Checks

/-! ## Rows of an order -/

namespace QuotationDb

/-- `ORDER BY sequence_no, id`. -/
def orderRoute (db : QuotationDb) (orderId : ℕ) : List RoutePlace :=
  ((db.orderPlaces.select fun p => p.parentId == orderId).insertionSort placeOrder).map Prod.snd

def requirementsOf (db : QuotationDb) (orderId : ℕ) : List (ℕ × ContainerRequirement) :=
  db.requirements.select fun q => q.serviceOrderId == orderId

def boxesOf (db : QuotationDb) (requirementId : ℕ) : List (ℕ × OrderContainer) :=
  db.orderContainers.select fun c => c.containerRequirementId == some requirementId

def pricingsOf (db : QuotationDb) (orderId : ℕ) : List (ℕ × OrderPricing) :=
  db.pricings.select fun p => p.serviceOrderId == orderId

def pricingLinesOf (db : QuotationDb) (pricingId : ℕ) : List (ℕ × OrderPricingLine) :=
  db.pricingLines.select fun l => l.serviceOrderPricingId == pricingId

end QuotationDb

/-- The rows of orders refer to orders, requirements and pricings that were inserted before. -/
structure OrderKeys (db : QuotationDb) : Prop where
  places : db.orderPlaces.KeysBelow (fun p => some p.parentId) db.orders.nextId
  requirements : db.requirements.KeysBelow (fun q => some q.serviceOrderId) db.orders.nextId
  boxOrders : db.orderContainers.KeysBelow (fun c => some c.serviceOrderId) db.orders.nextId
  boxes : db.orderContainers.KeysBelow OrderContainer.containerRequirementId db.requirements.nextId
  pricings : db.pricings.KeysBelow (fun p => some p.serviceOrderId) db.orders.nextId
  pricingLines : db.pricingLines.KeysBelow (fun l => some l.serviceOrderPricingId) db.pricings.nextId

/-! ## Copies -/

/-- A line of the order's pricing; it has no columns for the amounts before the total. -/
structure CopiesLine (line : ℕ × QuotationRevisionLine) (copy : OrderPricingLine) : Prop where
  source : copy.sourceQuotationLineId = some line.1
  lineNo : copy.lineNo = line.2.lineNo
  feeType : copy.feeTypeId = line.2.feeTypeId
  description : copy.description = line.2.serviceDescription
  quantity : copy.quantity = line.2.quantity
  unitCode : copy.unitCode = line.2.unitCode
  unitPrice : copy.unitPrice = line.2.unitPrice
  discountRate : copy.discountRate = line.2.discountRate
  taxRate : copy.taxRate = line.2.taxRate
  lineTotal : copy.lineTotal = line.2.lineTotal

/-- A stop of the order, but for its number. -/
structure CopiesStop (stop : ℕ × RoutePlace) (copy : RoutePlace) : Prop where
  placeRoleId : copy.placeRoleId = stop.2.placeRoleId
  placeRole : copy.placeRole = stop.2.placeRole
  plannedAt : copy.plannedAt = stop.2.plannedAt
  freeText : copy.freeText = stop.2.freeText
  notes : copy.notes = stop.2.notes

/-- A requirement, with as many boxes as its quantity has whole units, and at least one. None has a number. -/
structure CopiesContainer (db : QuotationDb) (orderId : ℕ) (container : ℕ × QuotationRevisionContainer)
    (copy : ℕ × ContainerRequirement) : Prop where
  source : copy.2.sourceQuotationContainerId = some container.1
  containerType : copy.2.containerTypeId = container.2.containerTypeId
  quantity : copy.2.quantity = container.2.quantity
  grossWeightKg : copy.2.grossWeightKg = container.2.grossWeightKg
  description : copy.2.description = container.2.description
  remarks : copy.2.remarks = container.2.remarks
  boxes : (db.boxesOf copy.1).map Prod.snd = List.replicate (max 1 ⌊container.2.quantity.val⌋.toNat)
    ⟨orderId, some copy.1, container.2.containerTypeId, none, container.2.grossWeightKg⟩

/-- The order of `db'` has what the revision has in `db`. Without route rows it gets the stops of the header. -/
structure OrderCopies (db db' : QuotationDb) (data : LegacyRoute) (revisionId : ℕ) (r : QuotationRevision)
    (orderId : ℕ) : Prop where
  order : ∃ o, db'.orders.get? orderId = some o ∧ o.quotationRevisionId = some revisionId
  pricing : ∃ pricingId, db'.pricingsOf orderId = [(pricingId, ⟨orderId, r.amounts, r.currencyCode⟩)] ∧
    List.Forall₂ CopiesLine (db.linesOf revisionId) ((db'.pricingLinesOf pricingId).map Prod.snd)
  numbered : (db'.orderRoute orderId).map RoutePlace.sequenceNo =
    (List.range' 1 (db'.orderRoute orderId).length).map Nat.cast
  route : db.placesOf revisionId ≠ [] →
    List.Forall₂ CopiesStop ((db.placesOf revisionId).insertionSort placeOrder) (db'.orderRoute orderId)
  legacyRoute : db.placesOf revisionId = [] →
    (db'.orderRoute orderId).map (fun p => (p.placeRole, p.freeText)) = data.stops.map fun s => (s.1, some s.2)
  requirements : List.Forall₂ (CopiesContainer db' orderId) (db.containersOf revisionId) (db'.requirementsOf orderId)
  boxes : ∀ id box, db'.orderContainers.get? id = some box → box.serviceOrderId = orderId →
    ∃ q ∈ db'.requirementsOf orderId, box.containerRequirementId = some q.1

/-! ## Route -/

theorem zipIdx_numbered {α : Type} (l : List α) :
    l.zipIdx.map (fun s => ((s.2 : ℤ) + 1)) = (List.range' 1 l.length).map Nat.cast := by
  have hindex : l.zipIdx.map Prod.snd = List.range' 0 l.length := List.zipIdx_map_snd 0 l
  have hshift : List.range' 1 l.length = (List.range' 0 l.length).map (1 + ·) := by rw [List.map_add_range']
  rw [hshift, ← hindex, List.map_map, List.map_map]
  refine List.map_congr_left fun s _ => ?_
  simp [add_comm]

/-- The stops of an order are numbered from 1. -/
theorem orderStops_numbered (db : QuotationDb) (data : LegacyRoute) (revisionId orderId : ℕ) :
    (orderStops db data revisionId orderId).map RoutePlace.sequenceNo =
      (List.range' 1 (orderStops db data revisionId orderId).length).map Nat.cast := by
  unfold orderStops
  split <;>
  · rw [List.map_map, List.length_map, List.length_zipIdx, ← zipIdx_numbered]
    rfl

theorem orderStops_parent {db : QuotationDb} {data : LegacyRoute} {revisionId orderId : ℕ} :
    ∀ p ∈ orderStops db data revisionId orderId, p.parentId = orderId := by
  intro p hp
  unfold orderStops at hp
  split at hp <;>
  · obtain ⟨_, -, rfl⟩ := List.mem_map.1 hp
    rfl

/-- Rows that were inserted in the order of their numbers are read in that order. -/
theorem insertionSort_placeOrder {rows : List RoutePlace} (k : ℕ)
    (h : rows.map RoutePlace.sequenceNo = (List.range' 1 rows.length).map Nat.cast) :
    (((rows.zipIdx k).map Prod.swap).insertionSort placeOrder).map Prod.snd = rows := by
  have hincreasing : rows.Pairwise fun p q => p.sequenceNo < q.sequenceNo := by
    rw [← List.pairwise_map (f := RoutePlace.sequenceNo) (R := (· < ·)), h, List.pairwise_map]
    exact (List.pairwise_lt_range' (s := 1)).imp fun hlt => Nat.cast_lt.2 hlt
  have hsorted : ((rows.zipIdx k).map Prod.swap).Pairwise placeOrder := by
    rw [List.pairwise_map]
    have hfst : (rows.zipIdx k).map Prod.fst = rows := List.zipIdx_map_fst k rows
    rw [← hfst, List.pairwise_map] at hincreasing
    exact hincreasing.imp fun hlt => .inl hlt
  rw [hsorted.insertionSort_eq, List.map_map]
  exact List.zipIdx_map_fst k rows

/-- The stops are those of the revision. -/
theorem orderStops_copies {db : QuotationDb} {data : LegacyRoute} {revisionId orderId : ℕ}
    (h : db.placesOf revisionId ≠ []) :
    List.Forall₂ CopiesStop ((db.placesOf revisionId).insertionSort placeOrder) (orderStops db data revisionId orderId) := by
  unfold orderStops
  split
  · next hnil =>
    have hperm := List.perm_insertionSort placeOrder (db.placesOf revisionId)
    rw [hnil] at hperm
    exact absurd (List.nil_perm.1 hperm) h
  · generalize (db.placesOf revisionId).insertionSort placeOrder = stops
    rw [List.forall₂_map_right_iff]
    have hfst : stops.zipIdx.map Prod.fst = stops := List.zipIdx_map_fst 0 stops
    conv => arg 2; rw [← hfst]
    rw [List.forall₂_map_left_iff, List.forall₂_same]
    exact fun _ _ => ⟨rfl, rfl, rfl, rfl, rfl⟩

theorem orderStops_legacy {db : QuotationDb} {data : LegacyRoute} {revisionId orderId : ℕ}
    (h : db.placesOf revisionId = []) :
    (orderStops db data revisionId orderId).map (fun p => (p.placeRole, p.freeText)) =
      data.stops.map fun s => (s.1, some s.2) := by
  have hsorted : (db.placesOf revisionId).insertionSort placeOrder = [] := by rw [h]; rfl
  have hfst : data.stops.zipIdx.map Prod.fst = data.stops := List.zipIdx_map_fst 0 data.stops
  simp only [orderStops, hsorted]
  conv => rhs; rw [← hfst]
  simp only [List.map_map]
  rfl

/-! ## Containers -/

theorem boxCount_eq (quantity : Quantity) : boxCount quantity = max 1 ⌊quantity.val⌋.toNat := by
  unfold boxCount
  split
  · next h => simp [h]
  · rfl

/-- The requirement of a container. -/
def requirementOf (orderId : ℕ) (source : ℕ × QuotationRevisionContainer) : ContainerRequirement where
  serviceOrderId := orderId
  sourceQuotationContainerId := some source.1
  containerTypeId := source.2.containerTypeId
  quantity := source.2.quantity
  grossWeightKg := source.2.grossWeightKg
  description := source.2.description
  remarks := source.2.remarks

/-- A pending box of the requirement. -/
def pendingBox (orderId requirementId : ℕ) (source : ℕ × QuotationRevisionContainer) : OrderContainer :=
  ⟨orderId, some requirementId, source.2.containerTypeId, none, source.2.grossWeightKg⟩

theorem insertRequirement_eq (orderId : ℕ) (written : Table ContainerRequirement × Table OrderContainer)
    (source : ℕ × QuotationRevisionContainer) : insertRequirement orderId written source =
      (written.1.insert (requirementOf orderId source), written.2.insertAll
        (List.replicate (max 1 ⌊source.2.quantity.val⌋.toNat) (pendingBox orderId written.1.nextId source))) := by
  rw [← boxCount_eq]
  rfl

section
variable {orderId : ℕ}

theorem foldl_insertRequirement_fst (written : Table ContainerRequirement × Table OrderContainer)
    (sources : List (ℕ × QuotationRevisionContainer)) :
    (sources.foldl (insertRequirement orderId) written).1 = written.1.insertAll (sources.map (requirementOf orderId)) := by
  induction sources generalizing written with
  | nil => rfl
  | cons source sources ih =>
    rw [List.foldl_cons, ih, insertRequirement_eq]
    rfl

/-- Boxes of a requirement that was inserted before. -/
theorem foldl_insertRequirement_boxes {written : Table ContainerRequirement × Table OrderContainer} {id : ℕ}
    (hid : id < written.1.nextId) (sources : List (ℕ × QuotationRevisionContainer)) :
    ((sources.foldl (insertRequirement orderId) written).2.select fun c => c.containerRequirementId == some id) =
      written.2.select fun c => c.containerRequirementId == some id := by
  induction sources generalizing written with
  | nil => rfl
  | cons source sources ih =>
    rw [List.foldl_cons, insertRequirement_eq, ih (hid.trans (Nat.lt_succ_self _))]
    refine Table.select_insertAll_of_not _ fun box hbox => ?_
    rw [List.eq_of_mem_replicate hbox]
    exact beq_false_of_ne fun heq => hid.ne (Option.some.inj heq).symm

theorem foldl_insertRequirement_keys (written : Table ContainerRequirement × Table OrderContainer)
    (h : written.2.KeysBelow OrderContainer.containerRequirementId written.1.nextId)
    (sources : List (ℕ × QuotationRevisionContainer)) :
    (sources.foldl (insertRequirement orderId) written).2.KeysBelow OrderContainer.containerRequirementId
      (sources.foldl (insertRequirement orderId) written).1.nextId := by
  induction sources generalizing written with
  | nil => exact h
  | cons source sources ih =>
    rw [List.foldl_cons, insertRequirement_eq]
    refine ih _ ((h.mono (Nat.le_succ _)).insertAll fun box hbox id hid => ?_)
    rw [List.eq_of_mem_replicate hbox, pendingBox, Option.mem_some_iff] at hid
    exact hid ▸ Nat.lt_succ_self _

/-- Each container gets its requirement and the boxes of it. -/
theorem foldl_insertRequirement_copies (orderId : ℕ) (sources : List (ℕ × QuotationRevisionContainer))
    (written : Table ContainerRequirement × Table OrderContainer)
    (h : written.2.KeysBelow OrderContainer.containerRequirementId written.1.nextId) :
    List.Forall₂ (fun source copy => copy.2 = requirementOf orderId source ∧
        ((sources.foldl (insertRequirement orderId) written).2.select
          fun c => c.containerRequirementId == some copy.1).map Prod.snd =
            List.replicate (max 1 ⌊source.2.quantity.val⌋.toNat) (pendingBox orderId copy.1 source))
      sources (((sources.map (requirementOf orderId)).zipIdx written.1.nextId).map Prod.swap) := by
  induction sources generalizing written with
  | nil => exact .nil
  | cons source sources ih =>
    rw [List.foldl_cons, insertRequirement_eq, List.map_cons, List.zipIdx_cons, List.map_cons]
    refine .cons ⟨rfl, ?_⟩ ?_
    · rw [Prod.fst_swap, foldl_insertRequirement_boxes (Nat.lt_succ_self _)]
      rw [Table.select_insertAll, h.select_eq_nil fun c hc => beq_iff_eq.1 hc, List.nil_append]
      · rw [List.map_map]
        exact List.zipIdx_map_fst _ _
      · intro box hbox
        rw [List.eq_of_mem_replicate hbox]
        exact beq_self_eq_true _
    · refine ih _ ((h.mono (Nat.le_succ _)).insertAll fun box hbox id hid => ?_)
      rw [List.eq_of_mem_replicate hbox, pendingBox, Option.mem_some_iff] at hid
      exact hid ▸ Nat.lt_succ_self _

/-- A box is an old one, or it belongs to one of the requirements and to the order. -/
theorem mem_foldl_insertRequirement {written : Table ContainerRequirement × Table OrderContainer}
    {sources : List (ℕ × QuotationRevisionContainer)} {box : OrderContainer}
    (h : box ∈ (sources.foldl (insertRequirement orderId) written).2.values) :
    box ∈ written.2.values ∨ ∃ q ∈ ((sources.map (requirementOf orderId)).zipIdx written.1.nextId).map Prod.swap,
      box.containerRequirementId = some q.1 ∧ box.serviceOrderId = orderId := by
  induction sources generalizing written with
  | nil => exact .inl h
  | cons source sources ih =>
    rw [List.foldl_cons, insertRequirement_eq] at h
    rw [List.map_cons, List.zipIdx_cons, List.map_cons]
    rcases ih h with hbox | ⟨q, hq, hbox⟩
    · rw [Table.values_insertAll] at hbox
      rcases List.mem_append.1 hbox with hbox | hbox
      · exact .inl hbox
      · rw [List.eq_of_mem_replicate hbox]
        exact .inr ⟨_, List.mem_cons_self, rfl, rfl⟩
    · exact .inr ⟨q, List.mem_cons_of_mem _ hq, hbox⟩

end

/-! ## The order -/

/-- **A conversion copies the revision.** -/
theorem createServiceOrderFromQuotation_copies {env : Env} {db db' : QuotationDb} {quotation : Quotation} {revisionId : ℕ}
    {r : QuotationRevision} {orderId : ℕ} (hdb : OrderKeys db) (hcurrency : r.currencyCode ≠ "")
    (h : createServiceOrderFromQuotation env db quotation (revisionId, r) = .ok (db', orderId)) :
    OrderCopies db db' quotation.data revisionId r orderId := by
  simp only [createServiceOrderFromQuotation, bind_eq_ok, check_eq_ok, pure_eq_ok, Prod.mk.injEq] at h
  obtain ⟨_, -, rfl, rfl⟩ := h
  have hroute : ∀ p ∈ orderStops db quotation.data revisionId db.orders.nextId,
      (p.parentId == db.orders.nextId) = true := by
    intro p hp
    exact beq_iff_eq.2 (orderStops_parent p hp)
  have hstops : ∀ t, t = db.orderPlaces.insertAll (orderStops db quotation.data revisionId db.orders.nextId) →
      ((t.select fun p => p.parentId == db.orders.nextId).insertionSort placeOrder).map Prod.snd =
        orderStops db quotation.data revisionId db.orders.nextId := by
    rintro _ rfl
    rw [Table.select_insertAll _ hroute, hdb.places.select_eq_nil fun p hp => congrArg some (beq_iff_eq.1 hp),
      List.nil_append]
    exact insertionSort_placeOrder _ (orderStops_numbered db quotation.data revisionId db.orders.nextId)
  have hrequirements : ∀ t, t = ((db.containersOf revisionId).foldl (insertRequirement db.orders.nextId)
      (db.requirements, db.orderContainers)).1 → t.select (fun q => q.serviceOrderId == db.orders.nextId) =
        (((db.containersOf revisionId).map (requirementOf db.orders.nextId)).zipIdx db.requirements.nextId).map Prod.swap := by
    rintro _ rfl
    rw [foldl_insertRequirement_fst, Table.select_insertAll,
      hdb.requirements.select_eq_nil fun q hq => congrArg some (beq_iff_eq.1 hq), List.nil_append]
    intro q hq
    obtain ⟨_, -, rfl⟩ := List.mem_map.1 hq
    exact beq_self_eq_true _
  refine ⟨?_, ?_, ?_, ?_, ?_, ?_, ?_⟩
  · exact ⟨_, Table.get?_insert_self _ _, rfl⟩
  · refine ⟨db.pricings.nextId, ?_, ?_⟩
    · refine (Table.select_insert _ _ _).trans ?_
      rw [hdb.pricings.select_eq_nil fun p hp => congrArg some (beq_iff_eq.1 hp)]
      simp [hcurrency]
    · have hlines : ∀ l ∈ (db.linesOf revisionId).map (QuotationRevisionLine.pricingLine db.pricings.nextId),
          (l.serviceOrderPricingId == db.pricings.nextId) = true := by
        intro l hl
        obtain ⟨_, -, rfl⟩ := List.mem_map.1 hl
        exact beq_self_eq_true _
      have hselected : ∀ t, t = db.pricingLines.insertAll
          ((db.linesOf revisionId).map (QuotationRevisionLine.pricingLine db.pricings.nextId)) →
          (t.select fun l => l.serviceOrderPricingId == db.pricings.nextId).map Prod.snd =
            (db.linesOf revisionId).map (QuotationRevisionLine.pricingLine db.pricings.nextId) := by
        rintro _ rfl
        rw [Table.select_insertAll _ hlines, hdb.pricingLines.select_eq_nil fun l hl => congrArg some (beq_iff_eq.1 hl),
          List.nil_append, List.map_map]
        exact List.zipIdx_map_fst _ _
      rw [QuotationDb.pricingLinesOf, hselected _ rfl, List.forall₂_map_right_iff, List.forall₂_same]
      exact fun _ _ => ⟨rfl, rfl, rfl, rfl, rfl, rfl, rfl, rfl, rfl, rfl⟩
  · rw [QuotationDb.orderRoute, hstops _ rfl]
    exact orderStops_numbered db quotation.data revisionId db.orders.nextId
  · intro hplaces
    rw [QuotationDb.orderRoute, hstops _ rfl]
    exact orderStops_copies hplaces
  · intro hplaces
    rw [QuotationDb.orderRoute, hstops _ rfl]
    exact orderStops_legacy hplaces
  · rw [QuotationDb.requirementsOf, hrequirements _ rfl]
    refine (foldl_insertRequirement_copies db.orders.nextId (db.containersOf revisionId)
      (db.requirements, db.orderContainers) hdb.boxes).imp ?_
    rintro source ⟨id, _⟩ ⟨rfl, hboxes⟩
    exact ⟨rfl, rfl, rfl, rfl, rfl, rfl, hboxes⟩
  · intro id box hbox horder
    rw [QuotationDb.requirementsOf, hrequirements _ rfl]
    rcases mem_foldl_insertRequirement (Table.mem_values.2 ⟨id, hbox⟩) with hold | ⟨q, hq, hrequirement, -⟩
    · exact absurd horder (hdb.boxOrders box hold _ rfl).ne
    · exact ⟨q, hq, hrequirement⟩

/-- A new order refers to its own rows. -/
theorem OrderKeys.create {env : Env} {db db' : QuotationDb} {quotation : Quotation} {revision : ℕ × QuotationRevision}
    {orderId : ℕ} (h : OrderKeys db)
    (hcreate : createServiceOrderFromQuotation env db quotation revision = .ok (db', orderId)) : OrderKeys db' := by
  simp only [createServiceOrderFromQuotation, bind_eq_ok, check_eq_ok, pure_eq_ok, Prod.mk.injEq] at hcreate
  obtain ⟨_, -, rfl, -⟩ := hcreate
  have hnext : db.orders.nextId < db.orders.nextId + 1 := Nat.lt_succ_self _
  refine ⟨?_, ?_, ?_, ?_, ?_, ?_⟩
  · refine (h.places.mono hnext.le).insertAll fun p hp id hid => ?_
    rw [orderStops_parent p hp, Option.mem_some_iff] at hid
    exact hid ▸ hnext
  · rw [foldl_insertRequirement_fst]
    refine (h.requirements.mono hnext.le).insertAll fun q hq id hid => ?_
    obtain ⟨_, -, rfl⟩ := List.mem_map.1 hq
    rw [Option.mem_some_iff] at hid
    exact hid ▸ hnext
  · intro box hbox id hid
    rw [Option.mem_some_iff] at hid
    rcases mem_foldl_insertRequirement hbox with hold | ⟨_, -, -, horder⟩
    · exact hid ▸ (h.boxOrders box hold _ rfl).trans hnext
    · rw [← hid, horder]
      exact hnext
  · exact foldl_insertRequirement_keys (db.requirements, db.orderContainers) h.boxes _
  · refine (h.pricings.mono hnext.le).insert fun id hid => ?_
    rw [Option.mem_some_iff] at hid
    exact hid ▸ hnext
  · refine (h.pricingLines.mono (Nat.le_succ _)).insertAll fun l hl id hid => ?_
    obtain ⟨_, -, rfl⟩ := List.mem_map.1 hl
    rw [Option.mem_some_iff] at hid
    exact hid ▸ Nat.lt_succ_self _

end LcsSystem
