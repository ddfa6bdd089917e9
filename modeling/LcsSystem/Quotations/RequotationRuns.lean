import LcsSystem.Quotations.RouteHistory
import LcsSystem.Quotations.RequotedLines

/-!
# Re-quotations over runs

An order that was converted keeps the lines of its revision, which is frozen (`OrdersQuoted`). So after every run
`requotation_money` compares a re-quotation with the lines that were converted.
-/

namespace LcsSystem
open Relational DecimalArith Checks Transition

/-! ## Orders and their revisions -/

/-- Every order has one pricing, whose lines are copies of those of a revision that has left DRAFT. -/
def OrdersQuoted (db : QuotationDb) : Prop :=
  ∀ orderId o, db.orders.get? orderId = some o → ∃ revisionId r pricingId pricing, o.quotationRevisionId = some revisionId ∧
    db.revisions.get? revisionId = some r ∧ r.status ≠ .draft ∧ db.pricingsOf orderId = [(pricingId, pricing)] ∧
      List.Forall₂ CopiesLine (db.linesOf revisionId) ((db.pricingLinesOf pricingId).map Prod.snd)

/-- A revision that has left DRAFT is frozen but for the deletion of its quotation. -/
theorem QuotationWrite.frozen {db db' : QuotationDb} (h : QuotationWrite db db') :
    TermsFrozen db db' ∨ ∃ quotationId, db' = removeQuotation db quotationId ∧ ∀ o ∈ db.orders.values,
      ∀ revisionId ∈ o.quotationRevisionId, ∀ r ∈ db.revisions.get? revisionId, r.quotationId ≠ quotationId := by
  cases h with
  | header parties directions sequences quotations =>
    exact .inl (TermsFrozen.of_same fun id _ _ _ => .of_tables rfl rfl rfl rfl)
  | conversions conversions => exact .inl (TermsFrozen.of_same fun id _ _ _ => .of_tables rfl rfl rfl rfl)
  | first env quotationId quotationDate validUntil currency hcurrency =>
    exact .inl (TermsFrozen.of_same fun id r hr _ => insertRevision_same (Table.lt_nextId hr).ne)
  | copy quotationId source userId hsource =>
    exact .inl (TermsFrozen.of_same fun id r hr _ => cloneRevision_same (Table.lt_nextId hr).ne)
  | dates revisionId p hdraft h =>
    exact .inl (TermsFrozen.of_same fun id r hr hleft => saveRevisionHeader_same (ne_of_left_draft hr hleft (.inl hdraft)) h)
  | containers revisionId p hdraft h =>
    exact .inl (TermsFrozen.of_same fun id r hr hleft => saveContainers_same (ne_of_left_draft hr hleft (.inl hdraft)) h)
  | route revisionId p hdraft h =>
    exact .inl (TermsFrozen.of_same fun id r hr hleft => savePlaces_same (ne_of_left_draft hr hleft (.inl hdraft)) h)
  | lines revisionId p hdraft h =>
    exact .inl (TermsFrozen.of_same fun id r hr hleft => savePricingLines_same (ne_of_left_draft hr hleft (.inl hdraft)) h)
  | status revisionId status hleft => exact .inl (TermsFrozen.setRevisionStatus db revisionId hleft)
  | order env quotation revision orderId hrevision hleft h =>
    simp only [createServiceOrderFromQuotation, bind_eq_ok, check_eq_ok, pure_eq_ok, Prod.mk.injEq] at h
    obtain ⟨_, -, rfl, -⟩ := h
    exact .inl (TermsFrozen.of_same fun id _ _ _ => .of_tables rfl rfl rfl rfl)
  | remove quotationId horders => exact .inr ⟨quotationId, rfl, horders⟩

/-- The tables of orders, which only a conversion writes. -/
theorem QuotationWrite.orders {db db' : QuotationDb} (h : QuotationWrite db db') :
    (db'.orders = db.orders ∧ db'.pricings = db.pricings ∧ db'.pricingLines = db.pricingLines) ∨
      ∃ env quotation revision orderId, db.revisions.get? revision.1 = some revision.2 ∧ revision.2.status ≠ .draft ∧
        createServiceOrderFromQuotation env db quotation revision = .ok (db', orderId) := by
  cases h with
  | header parties directions sequences quotations => exact .inl ⟨rfl, rfl, rfl⟩
  | conversions conversions => exact .inl ⟨rfl, rfl, rfl⟩
  | first env quotationId quotationDate validUntil currency hcurrency => exact .inl ⟨rfl, rfl, rfl⟩
  | copy quotationId source userId hsource => exact .inl ⟨rfl, rfl, rfl⟩
  | dates revisionId p hdraft h =>
    simp only [saveRevisionHeader, bind_eq_ok, pure_eq_ok] at h
    obtain ⟨_, -, rfl⟩ := h
    exact .inl ⟨rfl, rfl, rfl⟩
  | containers revisionId p hdraft h =>
    obtain ⟨types, containers, rfl⟩ := saveContainers_spec h
    exact .inl ⟨rfl, rfl, rfl⟩
  | route revisionId p hdraft h =>
    obtain ⟨places, rfl⟩ := savePlaces_spec h
    exact .inl ⟨rfl, rfl, rfl⟩
  | lines revisionId p hdraft h =>
    rcases savePricingLines_spec h with rfl | ⟨lines, amounts, rfl⟩
    · exact .inl ⟨rfl, rfl, rfl⟩
    · exact .inl ⟨rfl, rfl, rfl⟩
  | status revisionId status hleft => exact .inl ⟨rfl, rfl, rfl⟩
  | order env quotation revision orderId hrevision hleft h =>
    exact .inr ⟨env, quotation, revision, orderId, hrevision, hleft, h⟩
  | remove quotationId horders => exact .inl ⟨rfl, rfl, rfl⟩

/-- What is kept of the revision of an order. -/
theorem QuotationWrite.revision_kept {db db' : QuotationDb} (h : QuotationWrite db db') {o : QuotedOrder}
    (ho : o ∈ db.orders.values) {revisionId : ℕ} (hsource : o.quotationRevisionId = some revisionId) {r : QuotationRevision}
    (hr : db.revisions.get? revisionId = some r) (hleft : r.status ≠ .draft) :
    (∃ r', db'.revisions.get? revisionId = some r' ∧ r'.status ≠ .draft) ∧ db'.linesOf revisionId = db.linesOf revisionId := by
  rcases h.frozen with hfrozen | ⟨quotationId, rfl, horders⟩
  · obtain ⟨⟨status, hstatus, hr'⟩, -, -, hlines⟩ := hfrozen revisionId r hr hleft
    exact ⟨⟨_, hr', hstatus⟩, hlines⟩
  · have hother : r.quotationId ≠ quotationId := horders o ho revisionId hsource r hr
    refine ⟨⟨r, ?_, hleft⟩, removeQuotation_linesOf hr hother⟩
    rw [removeQuotation, Table.get?_erase, hr, Option.filter_some, if_pos]
    simpa using hother

theorem OrdersQuoted.write {db db' : QuotationDb} (h : OrdersQuoted db) (hdb : Commercial db)
    (hwrite : QuotationWrite db db') : OrdersQuoted db' := by
  have hkept : ∀ orderId o, db.orders.get? orderId = some o →
      (∀ pricingId pricing, db.pricingsOf orderId = [(pricingId, pricing)] →
        db'.pricingsOf orderId = [(pricingId, pricing)] ∧ db'.pricingLinesOf pricingId = db.pricingLinesOf pricingId) →
      ∃ revisionId r pricingId pricing, o.quotationRevisionId = some revisionId ∧
        db'.revisions.get? revisionId = some r ∧ r.status ≠ .draft ∧ db'.pricingsOf orderId = [(pricingId, pricing)] ∧
          List.Forall₂ CopiesLine (db'.linesOf revisionId) ((db'.pricingLinesOf pricingId).map Prod.snd) := by
    intro orderId o ho hpricings
    obtain ⟨revisionId, r, pricingId, pricing, hsource, hr, hleft, hpricing, hcopies⟩ := h orderId o ho
    obtain ⟨⟨r', hr', hleft'⟩, hlines⟩ := hwrite.revision_kept (Table.mem_values.2 ⟨orderId, ho⟩) hsource hr hleft
    obtain ⟨hsame, hsameLines⟩ := hpricings pricingId pricing hpricing
    exact ⟨revisionId, r', pricingId, pricing, hsource, hr', hleft', hsame, hlines ▸ hsameLines ▸ hcopies⟩
  rcases hwrite.orders with ⟨horders, hpricings, hpricingLines⟩ | ⟨env, quotation, revision, newId, hrevision, hleft, hcreate⟩
  · intro orderId o ho
    refine hkept orderId o (horders ▸ ho) fun pricingId pricing hpricing => ⟨?_, ?_⟩
    · rw [QuotationDb.pricingsOf, hpricings]
      exact hpricing
    · rw [QuotationDb.pricingLinesOf, hpricingLines]
      rfl
  · have hcopies := createServiceOrderFromQuotation_copies hdb.orderKeys (hdb.currency _ _ hrevision) hcreate
    simp only [createServiceOrderFromQuotation, bind_eq_ok, check_eq_ok, pure_eq_ok, Prod.mk.injEq] at hcreate
    obtain ⟨_, -, rfl, rfl⟩ := hcreate
    intro orderId o ho
    by_cases hnew : orderId = db.orders.nextId
    · -- the order that was created
      subst hnew
      obtain ⟨o', ho', hsource⟩ := hcopies.order
      obtain ⟨pricingId, hpricing, hlines⟩ := hcopies.pricing
      rw [ho, Option.some.injEq] at ho'
      exact ⟨revision.1, revision.2, pricingId, _, ho' ▸ hsource, hrevision, hleft, hpricing, hlines⟩
    · have hold : db.orders.get? orderId = some o := by
        rw [Table.get?_insert, if_neg hnew] at ho
        exact ho
      refine hkept orderId o hold fun pricingId pricing hpricing => ⟨?_, ?_⟩
      · refine Eq.trans ?_ hpricing
        refine Table.select_insert_of_not _ ?_
        exact beq_false_of_ne (Ne.symm hnew)
      · have hlt : pricingId < db.pricings.nextId := by
          have hmem : (pricingId, pricing) ∈ db.pricingsOf orderId := by
            rw [hpricing]
            exact List.mem_singleton_self _
          exact Table.lt_nextId (Table.mem_select.1 hmem).1
        refine Table.select_insertAll_of_not _ fun l hl => ?_
        obtain ⟨_, -, rfl⟩ := List.mem_map.1 hl
        exact beq_false_of_ne hlt.ne'

/-- What holds of the tables after every run. -/
structure Quoting (db : QuotationDb) : Prop where
  numbered : RevisionsNumbered db
  commercial : Commercial db
  priced : EveryRevision PricedRevision db
  orders : OrdersQuoted db

theorem Quoting.step {db : QuotationDb} (h : Quoting db) (a : QuotationOperation) : Quoting (operationStep db a) := by
  have hwritten : Commercial (operationStep db a) ∧ EveryRevision PricedRevision (operationStep db a) ∧
      OrdersQuoted (operationStep db a) := by
    refine operationStep_invariant (P := fun db => Commercial db ∧ EveryRevision PricedRevision db ∧ OrdersQuoted db) ?_
      ⟨h.commercial, h.priced, h.orders⟩ a
    rintro db db' ⟨hcommercial, hpriced, horders⟩ hwrite
    exact ⟨hcommercial.write hwrite, hpriced.write pricedRevision_relation hwrite, horders.write hcommercial hwrite⟩
  exact ⟨h.numbered.step a, hwritten.1, hwritten.2.1, hwritten.2.2⟩

/-! ## The other parts of the body -/

/-- What a save asks of the body of a re-quotation besides its amounts. -/
structure BodyAccepted (env : Env) (db : QuotationDb) (orderId : ℕ) (order : QuotedOrder) (direction : NamedRecord) :
    Prop where
  header : quotationWriteSchema (requotation env db orderId order direction) = []
  party : ∃ party, db.parties.get? order.customerPartyId = some party ∧ party.deleted = false ∧ party.active = true
  direction : ∃ name, (requotation env db orderId order direction).direction.text.get? = some name ∧
    ∃ r ∈ db.directions.rows, (r.2.name = name ∨ r.2.code = upper name) ∧ r.2.deleted = false
  number : ∀ q ∈ db.quotations.values, q.quotationNo ≠ (allocateNumber env db.sequences "QUOTATION").2
  containers : ∀ c ∈ db.requirementsOf orderId, containerRequirementSchema (requotedContainer c.2) = []
  route : ∀ stop ∈ db.orderRoute orderId, (requotedStop stop).started = true →
    routeStopSchema (requotedStop stop) = [] ∧ StopResolved db.placeRoles [] (requotedStop stop)
  texts : ∀ l ∈ quotedLines db orderId,
    (strip l.description).length ≤ 1000 ∧ ∀ unit ∈ l.unitCode, (strip unit).length ≤ 32

section
variable {env : Env} {db : QuotationDb} {orderId : ℕ} {order : QuotedOrder} {direction : NamedRecord}

theorem check_nullField {key : String} {n : ℕ} {s : Option String} :
    TextSpec.check { key := key, maxLength := some n } (nullField s) = [] ↔ ∀ text ∈ s, (strip text).length ≤ n := by
  cases s with
  | none => simp [nullField, TextSpec.check, Field.text]
  | some text => simp [nullField, TextSpec.check_value_eq_nil]

theorem reference_nullField (key : String) (id : Option ℕ) :
    Reference.check key none (nullField (id.map fun n => .text (toString n))) = [] := by
  cases id <;> rfl

/-- The schema sees the texts of a re-quoted line; its numbers are in order. -/
theorem pricingLineSchema_requoted {l : QuotationRevisionLine} {copy : OrderPricingLine} (hcopy : CopiesMoney l copy)
    (hpriced : l.Priced) (hbalanced : l.Balanced) : pricingLineSchema (requotedLine copy) = [] ↔
      (strip copy.description).length ≤ 1000 ∧ ∀ unit ∈ copy.unitCode, (strip unit).length ≤ 32 := by
  have hquantity : DecimalSpec.check { key := "quantity", minimum := some zeroBound, decimalPlaces := some 3 }
      (.value copy.quantity.val) = [] := by
    simp only [DecimalSpec.check_value_eq_nil, Option.mem_def, Option.some.injEq, forall_eq', zeroBound]
    exact ⟨hcopy.quantity ▸ hpriced.quantity.le, by simp, usesAtMost_val copy.quantity (by decide)⟩
  have hunitPrice : DecimalSpec.check { key := "unitPrice" } (.value copy.unitPrice.val) = [] := by
    simp [DecimalSpec.check_value_eq_nil]
  have hdiscount : DecimalSpec.check { key := "discount", minimum := some zeroBound } (.value copy.discountRate.val) = [] := by
    simp only [DecimalSpec.check_value_eq_nil, Option.mem_def, Option.some.injEq, forall_eq', zeroBound]
    rw [hcopy.discountRate, hpriced.discountRate]
    exact ⟨hbalanced.discount_nonneg, by simp, by simp⟩
  have htax : DecimalSpec.check { key := "tax", minimum := some zeroBound } (.value (requotedTax copy)) = [] := by
    simp only [DecimalSpec.check_value_eq_nil, Option.mem_def, Option.some.injEq, forall_eq', zeroBound]
    exact ⟨le_max_left _ _, by simp, by simp⟩
  have habsent : Reference.check "feeType" (some 255) .absent = [] ∧ Reference.check "transportBy" (some 255) .absent = [] ∧
      DecimalSpec.check { key := "taxRate", minimum := some zeroBound, maximum := some ⟨100, "100"⟩ } .absent = [] :=
    ⟨rfl, rfl, rfl⟩
  obtain ⟨hfeeType, htransport, hrate⟩ := habsent
  simp only [pricingLineSchema, requotedLine, reference_nullField, hfeeType, htransport, hquantity, hunitPrice, hdiscount, htax,
    hrate, TextSpec.check_value_eq_nil, check_nullField, List.append_eq_nil_iff, true_and, and_true]

theorem pricingLineSchemas_requoted {lines : List QuotationRevisionLine} {copies : List OrderPricingLine}
    (hcopies : List.Forall₂ CopiesMoney lines copies) (hpriced : ∀ l ∈ lines, l.Priced) (hbalanced : ∀ l ∈ lines, l.Balanced) :
    ∀ copy ∈ copies, pricingLineSchema (requotedLine copy) = [] ↔
      (strip copy.description).length ≤ 1000 ∧ ∀ unit ∈ copy.unitCode, (strip unit).length ≤ 32 := by
  induction hcopies with
  | nil => simp
  | cons hcopy _ ih =>
    rw [List.forall_mem_cons] at hpriced hbalanced ⊢
    exact ⟨pricingLineSchema_requoted hcopy hpriced.1 hbalanced.1, ih hpriced.2 hbalanced.2⟩

theorem resolvePartyById_toString {id : ℕ} {partyId : ℕ} :
    resolvePartyById db (.text (toString id)) = .ok partyId ↔
      partyId = id ∧ ∃ party, db.parties.get? id = some party ∧ party.deleted = false ∧ party.active = true := by
  simp only [resolvePartyById, Reference.number_toString, bind_eq_ok, require_eq_ok, check_eq_ok, pure_eq_ok,
    Option.some.injEq, Option.filter_eq_some_iff, Bool.not_eq_true']
  constructor
  · rintro ⟨_, rfl, party, ⟨hget, hkept⟩, _, hactive, rfl⟩
    exact ⟨rfl, party, hget, hkept, hactive⟩
  · rintro ⟨rfl, party, hget, hkept, hactive⟩
    exact ⟨_, rfl, party, ⟨hget, hkept⟩, ⟨⟩, hactive, rfl⟩

theorem resolveDirection_eq_ok {name : String} {out : QuotationDb × ℕ} :
    resolveDirection db (some name) = .ok out ↔ ∃ r, (db.directions.rows.find? fun r =>
      (r.2.name == name || r.2.code == upper name) && !r.2.deleted) = some r ∧ out = (db, r.1) := by
  simp only [resolveDirection, bind_eq_ok, require_eq_ok, pure_eq_ok]
  constructor
  · rintro ⟨r, hr, rfl⟩
    exact ⟨r, hr, rfl⟩
  · rintro ⟨r, hr, rfl⟩
    exact ⟨r, hr, rfl⟩

theorem exists_find?_direction {rows : List (ℕ × NamedRecord)} {name : String} :
    (∃ r, (rows.find? fun r => (r.2.name == name || r.2.code == upper name) && !r.2.deleted) = some r) ↔
      ∃ r ∈ rows, (r.2.name = name ∨ r.2.code = upper name) ∧ r.2.deleted = false := by
  rw [← Option.isSome_iff_exists, List.find?_isSome]
  simp

/-- The header of a re-quotation is a new one. -/
theorem quotationOf_requotation {headed : QuotationDb} {quotationId : ℕ}
    (h : quotationOf env db (requotation env db orderId order direction) = .ok (headed, quotationId)) :
    (∃ party, db.parties.get? order.customerPartyId = some party ∧ party.deleted = false ∧ party.active = true) ∧
      (∃ name, (requotation env db orderId order direction).direction.text.get? = some name ∧
        ∃ r ∈ db.directions.rows, (r.2.name = name ∨ r.2.code = upper name) ∧ r.2.deleted = false) ∧
      ∀ q ∈ db.quotations.values, q.quotationNo ≠ (allocateNumber env db.sequences "QUOTATION").2 := by
  have hnew : storedQuotation db (requotation env db orderId order direction) = none := rfl
  have hreference : (requotation env db orderId order direction).customerPartyId.reference? =
      some (.text (toString order.customerPartyId)) := reference?_toString _
  rw [quotationOf, hnew] at h
  simp only [createQuotation, hreference, customerOf, bind_eq_ok, check_eq_ok, pure_eq_ok, resolvePartyById_toString] at h
  obtain ⟨_, -, _, -, _, hdirection, _, ⟨partyId, ⟨rfl, hparty⟩, rfl⟩, _, hresolved, _, hnumber, -⟩ := h
  obtain ⟨name, hname⟩ := Option.isSome_iff_exists.1 hdirection
  simp only [hname] at hresolved
  obtain ⟨r, hr, rfl⟩ := resolveDirection_eq_ok.1 hresolved
  exact ⟨hparty, ⟨name, hname, exists_find?_direction.1 ⟨r, hr⟩⟩, hnumber⟩

theorem BodyAccepted.quotationOf (h : BodyAccepted env db orderId order direction) :
    ∃ headed, quotationOf env db (requotation env db orderId order direction) = .ok (headed, db.quotations.nextId) := by
  have hnew : storedQuotation db (requotation env db orderId order direction) = none := rfl
  have hreference : (requotation env db orderId order direction).customerPartyId.reference? =
      some (.text (toString order.customerPartyId)) := reference?_toString _
  obtain ⟨name, hname, hfound⟩ := h.direction
  obtain ⟨r, hr⟩ := exists_find?_direction.2 hfound
  rw [LcsSystem.quotationOf, hnew]
  simp only [createQuotation, hreference, customerOf, bind_eq_ok, check_eq_ok, pure_eq_ok, resolvePartyById_toString, hname]
  exact ⟨_, ⟨⟩, rfl, ⟨⟩, .inl rfl, ⟨⟩, rfl, _, ⟨_, ⟨rfl, h.party⟩, rfl⟩, _, resolveDirection_eq_ok.2 ⟨r, hr, rfl⟩, ⟨⟩, h.number, rfl⟩

end

/-! ## What is asked of the stored rows -/

/-- A stored stop that is taken as the stop of a form. -/
structure RoutePlace.Requotable (roles : Table PlaceRole) (stop : RoutePlace) : Prop where
  texts : (strip stop.placeRole).length ≤ 64 ∧ (∀ place ∈ stop.freeText, (strip place).length ≤ 500) ∧
    ∀ notes ∈ stop.notes, (strip notes).length ≤ 2000
  place : ∃ place ∈ stop.freeText, strip place ≠ ""
  role : ∃ reference, stop.roleKey = some reference ∧ ∃ id role, roleFor roles reference = some (id, role) ∧ role.active = true

/-- What a re-quotation asks of the tables besides its amounts. -/
structure Reacceptable (env : Env) (db : QuotationDb) (orderId : ℕ) (order : QuotedOrder) (direction : NamedRecord) :
    Prop where
  party : ∃ party, db.parties.get? order.customerPartyId = some party ∧ party.deleted = false ∧ party.active = true
  direction : strip direction.key ≠ "" ∧ (strip direction.key).length ≤ 64 ∧ ∃ r ∈ db.directions.rows,
    (r.2.name = strip direction.key ∨ r.2.code = upper (strip direction.key)) ∧ r.2.deleted = false
  currency : strip (quotedCurrency db orderId order) = "" ∨ (strip (quotedCurrency db orderId order)).length = 3
  description : ∀ text ∈ order.description, (strip text).length ≤ 10000
  number : ∀ q ∈ db.quotations.values, q.quotationNo ≠ (allocateNumber env db.sequences "QUOTATION").2
  containers : ∀ c ∈ db.requirementsOf orderId, 0 ≤ c.2.quantity.val ∧ (∀ kg ∈ c.2.grossWeightKg, 0 ≤ kg.val) ∧
    ∀ remarks ∈ c.2.remarks, (strip remarks).length ≤ 2000
  route : ∀ stop ∈ db.orderRoute orderId, stop.started = true → stop.Requotable db.placeRoles
  texts : ∀ l ∈ quotedLines db orderId,
    (strip l.description).length ≤ 1000 ∧ ∀ unit ∈ l.unitCode, (strip unit).length ≤ 32

section
variable {env : Env} {db : QuotationDb} {orderId : ℕ} {order : QuotedOrder} {direction : NamedRecord}

theorem check_exactLength {key s : String} {n : ℕ} :
    TextSpec.check { key := key, minLength := some n, maxLength := some n } (.value s) = [] ↔
      strip s = "" ∨ (strip s).length = n := by
  by_cases hblank : strip s = ""
  · simp [TextSpec.check, Field.text, hblank]
  · by_cases hshort : (strip s).length < n
    · simp [TextSpec.check, Field.text, hblank, Option.filter, hshort, hshort.ne]
    · by_cases hlong : n < (strip s).length
      · simp [TextSpec.check, Field.text, hblank, Option.filter, hshort, hlong, hlong.ne']
      · have hlength : (strip s).length = n := by omega
        simp [TextSpec.check, Field.text, hblank, Option.filter, hlength]

theorem quotationWriteSchema_requoted : quotationWriteSchema (requotation env db orderId order direction) = [] ↔
    (strip direction.key).length ≤ 64 ∧
      (strip (quotedCurrency db orderId order) = "" ∨ (strip (quotedCurrency db orderId order)).length = 3) ∧
        ∀ text ∈ order.description, (strip text).length ≤ 10000 := by
  have hstatus : TextSpec.check { key := "status", maxLength := some 20 } (.value "DRAFT") = [] := by decide
  have habsent : ∀ spec : TextSpec, spec.check .absent = [] := fun _ => rfl
  have hdecimal : ∀ spec : DecimalSpec, spec.check .absent = [] := fun _ => rfl
  have hreference : ∀ s, Reference.check "customerPartyId" none (.value (.text s)) = [] := fun _ => rfl
  have hdate : ∀ date : Calendar.Date, checkDate "date" (.value date) = [] := fun _ => rfl
  have hdates : ∀ key, checkDate key (.absent : Field Calendar.Date) = [] := fun _ => rfl
  simp only [quotationWriteSchema, requotation, QuotationPayload.empty, hstatus, habsent, hdecimal, hreference, hdate, hdates,
    check_nullField, check_exactLength, TextSpec.check_value_eq_nil, List.append_eq_nil_iff, true_and, and_true, and_assoc]

theorem containerRequirementSchema_requoted {c : ContainerRequirement} :
    containerRequirementSchema (requotedContainer c) = [] ↔
      0 ≤ c.quantity.val ∧ (∀ kg ∈ c.grossWeightKg, 0 ≤ kg.val) ∧ ∀ remarks ∈ c.remarks, (strip remarks).length ≤ 2000 := by
  have hcolumn : ∀ key, ∀ y : Quantity, DecimalSpec.check { key := key, minimum := some zeroBound, decimalPlaces := some 3 }
      (.value y.val) = [] ↔ 0 ≤ y.val := by
    intro key y
    simp [DecimalSpec.check_value_eq_nil, zeroBound, usesAtMost_val y (by decide)]
  have hweight : DecimalSpec.check { key := "grossWeightKg", minimum := some zeroBound, decimalPlaces := some 3 }
      (nullField (c.grossWeightKg.map Numeric.val)) = [] ↔ ∀ kg ∈ c.grossWeightKg, 0 ≤ kg.val := by
    cases c.grossWeightKg with
    | none => simp [nullField, DecimalSpec.check]
    | some kg => simp [nullField, hcolumn]
  have hreference : ∀ s, Reference.check "containerTypeId" none (.value (.text s)) = [] := fun _ => rfl
  have habsent : Reference.check "containerType" (some 64) .absent = [] ∧
      TextSpec.check { key := "description", maxLength := some 2000 } .absent = [] := ⟨rfl, rfl⟩
  simp only [containerRequirementSchema, requotedContainer, hreference, habsent, hcolumn, hweight, check_nullField,
    List.append_eq_nil_iff, true_and, and_true, and_assoc]

theorem check_filledField {key : String} {n : ℕ} {s : Option String} :
    TextSpec.check { key := key, maxLength := some n } (filledField s) = [] ↔ ∀ text ∈ s, (strip text).length ≤ n := by
  cases s with
  | none => simp [filledField, TextSpec.check, Field.text]
  | some text =>
    by_cases hempty : text = ""
    · subst hempty
      have hstrip : strip "" = "" := by decide
      simp [filledField, Option.filter, TextSpec.check, Field.text, hstrip]
    · simp [filledField, Option.filter, hempty, TextSpec.check_value_eq_nil]

theorem filledField_text (s : Option String) :
    (filledField s).text.get? = (s.map strip).filter fun text => text ≠ "" := by
  cases s with
  | none => rfl
  | some text =>
    by_cases hempty : text = ""
    · subst hempty
      have hstrip : strip "" = "" := by decide
      simp [filledField, Option.filter, Field.text, Field.get?, hstrip]
    · by_cases hblank : strip text = ""
      · simp [filledField, Option.filter, hempty, Field.text, Field.get?, hblank]
      · simp [filledField, Option.filter, hempty, Field.text, Field.get?, hblank]

theorem routeStop_requoted {roles : Table PlaceRole} {stop : RoutePlace} :
    routeStopSchema (requotedStop stop) = [] ∧ StopResolved roles [] (requotedStop stop) ↔ stop.Requotable roles := by
  have hreferences : Reference.check "placeRoleId" none (requotedStop stop).placeRoleId = [] := by
    cases h : stop.placeRoleId <;> simp [requotedStop, h, Reference.check]
  have hplanned : checkDateTime "planned" (requotedStop stop).planned = [] := by
    cases h : stop.plannedAt <;> simp [requotedStop, h, checkDateTime]
  have hschema : routeStopSchema (requotedStop stop) = [] ↔ (strip stop.placeRole).length ≤ 64 ∧
      (∀ place ∈ stop.freeText, (strip place).length ≤ 500) ∧ ∀ notes ∈ stop.notes, (strip notes).length ≤ 2000 := by
    rw [routeStopSchema, hreferences, hplanned]
    simp only [requotedStop, check_filledField, checkDateTime, Option.mem_def, Option.some.injEq, forall_eq',
      List.append_eq_nil_iff, true_and, and_true, and_assoc]
  have hrole : (requotedStop stop).roleReference = stop.roleKey := by
    rw [RouteStopPayload.roleReference, RoutePlace.roleKey]
    congr 1
    · cases h : stop.placeRoleId with
      | none => simp [requotedStop, h, Field.reference?]
      | some id =>
        simp only [requotedStop, h, Option.map_some, Option.getD_some]
        exact reference?_toString id
    · exact congrArg (Option.map Reference.text) (filledField_text (some stop.placeRole))
  have hplace : (∃ text, (requotedStop stop).place.text.get? = some text) ↔ ∃ place ∈ stop.freeText, strip place ≠ "" := by
    have htext : (requotedStop stop).place.text.get? = _ := filledField_text stop.freeText
    rw [htext]
    cases stop.freeText <;> simp [Option.filter_eq_some_iff]
  rw [hschema]
  constructor
  · rintro ⟨htexts, ⟨reference, id, role, hreference, hfound, hallowed⟩, hgiven⟩
    refine ⟨htexts, hplace.1 hgiven, reference, hrole ▸ hreference, id, role, hfound, ?_⟩
    rcases hallowed with hactive | hstored
    · exact hactive
    · cases hstored
  · rintro ⟨htexts, hgiven, reference, hreference, id, role, hfound, hactive⟩
    exact ⟨htexts, ⟨reference, id, role, hrole ▸ hreference, hfound, .inl hactive⟩, hplace.2 hgiven⟩

/-- What is asked of the body, as it is asked of the stored rows. -/
theorem bodyAccepted_iff : BodyAccepted env db orderId order direction ↔ Reacceptable env db orderId order direction := by
  have hname : (requotation env db orderId order direction).direction.text.get? =
      if strip direction.key = "" then none else some (strip direction.key) := by
    by_cases hblank : strip direction.key = "" <;> simp [requotation, Field.text, Field.get?, hblank]
  have hcontainers : (∀ c ∈ db.requirementsOf orderId, containerRequirementSchema (requotedContainer c.2) = []) ↔
      ∀ c ∈ db.requirementsOf orderId, 0 ≤ c.2.quantity.val ∧ (∀ kg ∈ c.2.grossWeightKg, 0 ≤ kg.val) ∧
        ∀ remarks ∈ c.2.remarks, (strip remarks).length ≤ 2000 :=
    forall₂_congr fun _ _ => containerRequirementSchema_requoted
  have hroute : (∀ stop ∈ db.orderRoute orderId, (requotedStop stop).started = true →
        routeStopSchema (requotedStop stop) = [] ∧ StopResolved db.placeRoles [] (requotedStop stop)) ↔
      ∀ stop ∈ db.orderRoute orderId, stop.started = true → stop.Requotable db.placeRoles :=
    forall₂_congr fun _ _ => imp_congr_right fun _ => routeStop_requoted
  constructor
  · rintro ⟨hheader, hparty, ⟨name, hgiven, hfound⟩, hnumber, hboxes, hstops, htexts⟩
    obtain ⟨hlength, hcurrency, hdescription⟩ := quotationWriteSchema_requoted.1 hheader
    have hkey : strip direction.key ≠ "" := by
      intro hblank
      rw [hname, if_pos hblank] at hgiven
      cases hgiven
    rw [hname, if_neg hkey, Option.some.injEq] at hgiven
    exact ⟨hparty, ⟨hkey, hlength, hgiven ▸ hfound⟩, hcurrency, hdescription, hnumber, hcontainers.1 hboxes, hroute.1 hstops,
      htexts⟩
  · rintro ⟨hparty, ⟨hkey, hlength, hfound⟩, hcurrency, hdescription, hnumber, hboxes, hstops, htexts⟩
    exact ⟨quotationWriteSchema_requoted.2 ⟨hlength, hcurrency, hdescription⟩, hparty,
      ⟨strip direction.key, by rw [hname, if_neg hkey], hfound⟩, hnumber, hcontainers.2 hboxes, hroute.2 hstops, htexts⟩

end

/-! ## The children -/

section
variable {env : Env} {db db' : QuotationDb} {orderId revisionId : ℕ} {p : QuotationPayload}

theorem rowsOf_value {α : Type} {schema : α → List FieldErrorItem} {rows rows' : List α} {field : String} :
    rowsOf schema (.value rows) field = .ok rows' ↔ (∀ row ∈ rows, schema row = []) ∧ rows' = rows := by
  simp only [rowsOf, bind_eq_ok, validateLineItems_eq_ok, pure_eq_ok]
  constructor
  · rintro ⟨_, hrows, rfl⟩
    exact ⟨hrows, rfl⟩
  · rintro ⟨hrows, rfl⟩
    exact ⟨⟨⟩, hrows, rfl⟩

/-- The columns of a requirement fit in those of a container. -/
theorem insertContainer_requoted (revisionId : ℕ) (db : QuotationDb) (c : ContainerRequirement) :
    ∃ db', insertContainer revisionId db (requotedContainer c) = .ok db' := by
  have hreference : (requotedContainer c).containerTypeId.reference? = some (.text (toString c.containerTypeId)) :=
    reference?_toString _
  have hweight : ∃ weight, grossWeight (requotedContainer c) = .ok weight := by
    cases hkg : c.grossWeightKg with
    | none =>
      refine ⟨none, ?_⟩
      simp [grossWeight, requotedContainer, hkg, nullField, Field.get?]
    | some kg =>
      by_cases hzero : kg.val = 0
      · refine ⟨none, ?_⟩
        simp [grossWeight, requotedContainer, hkg, nullField, Field.get?, Option.filter, hzero]
      · refine ⟨some kg, ?_⟩
        simp only [grossWeight, requotedContainer, hkg, nullField, Field.get?, Option.map_some, Option.getD_some, Option.filter,
          decide_not, hzero, decide_false, Bool.not_false, if_true, store_val]
        rfl
  obtain ⟨weight, hweight⟩ := hweight
  have hquantity : store 12 3 ((requotedContainer c).quantity.get?.getD 1) = .ok c.quantity := store_val c.quantity
  simp only [insertContainer, containerTypeOf, hreference, Reference.number_toString, hquantity, hweight, bind_eq_ok,
    require_eq_ok, pure_eq_ok]
  exact ⟨_, _, ⟨_, rfl, rfl⟩, _, rfl, _, rfl, rfl⟩

theorem insertContainers_requoted (revisionId : ℕ) (requirements : List (ℕ × ContainerRequirement)) (db : QuotationDb) :
    ∃ db', (requirements.map fun c => requotedContainer c.2).foldlM (insertContainer revisionId) db = .ok db' := by
  induction requirements generalizing db with
  | nil => exact ⟨db, rfl⟩
  | cons c requirements ih =>
    obtain ⟨first, hfirst⟩ := insertContainer_requoted revisionId db c.2
    rw [List.map_cons, List.foldlM_cons, hfirst, ok_bind]
    exact ih first

theorem saveContainers_requoted (revisionId : ℕ) {requirements : List (ℕ × ContainerRequirement)}
    (hp : p.containerRequirements = .value (requirements.map fun c => requotedContainer c.2)) :
    (∃ db', saveContainers db revisionId p = .ok db') ↔
      ∀ c ∈ requirements, containerRequirementSchema (requotedContainer c.2) = [] := by
  simp only [saveContainers, hp, Field.sent, if_true, bind_eq_ok, rowsOf_value, List.forall_mem_map]
  constructor
  · rintro ⟨db', _, ⟨hrows, -⟩, -⟩
    exact hrows
  · intro hrows
    obtain ⟨db', hdb'⟩ := insertContainers_requoted revisionId requirements
      { db with containers := db.containers.erase fun _ c => c.quotationRevisionId == revisionId }
    exact ⟨db', _, ⟨hrows, rfl⟩, hdb'⟩

theorem savePlaces_requoted (db : QuotationDb) (revisionId : ℕ) {stops : List RoutePlace} (hp : p.places = .value (stops.map requotedStop)) :
    (∃ db', savePlaces db revisionId p = .ok db') ↔ ∀ stop ∈ stops, (requotedStop stop).started = true →
      routeStopSchema (requotedStop stop) = [] ∧ StopResolved db.placeRoles [] (requotedStop stop) := by
  have hstored : ∀ known stop, StopResolved db.placeRoles known (requotedStop stop) ↔
      StopResolved db.placeRoles [] (requotedStop stop) := by
    intro known stop
    constructor <;>
    · rintro ⟨hrole, hplace⟩
      exact ⟨hrole, hplace⟩
  simp only [savePlaces, hp, Field.sent, if_true, bind_eq_ok, pure_eq_ok, saveRouteStops, resolveRouteStops_eq_ok, startedRows,
    List.mem_filter, List.mem_map, and_imp, forall_exists_index, forall_apply_eq_imp_iff₂, hstored]
  constructor
  · rintro ⟨db', _, ⟨_, ⟨hrows, -⟩, -⟩, -⟩
    exact hrows
  · intro hrows
    exact ⟨_, _, ⟨_, ⟨hrows, rfl⟩, rfl⟩, rfl⟩

end

/-! ## The re-quotation of an order -/

theorem copies_lineNo {lines : List (ℕ × QuotationRevisionLine)} {copies : List OrderPricingLine}
    (h : List.Forall₂ CopiesLine lines copies) :
    copies.map OrderPricingLine.lineNo = lines.map fun l => l.2.lineNo := by
  induction h with
  | nil => rfl
  | cons hcopy _ ih => rw [List.map_cons, List.map_cons, hcopy.lineNo, ih]

/-- The copies are read in the order of the lines. -/
theorem quotedLines_eq {db : QuotationDb} {orderId pricingId : ℕ} {pricing : OrderPricing}
    (hpricing : db.pricingsOf orderId = [(pricingId, pricing)]) {lines : List (ℕ × QuotationRevisionLine)}
    (hcopies : List.Forall₂ CopiesLine lines ((db.pricingLinesOf pricingId).map Prod.snd))
    (hnumbered : lines.map (fun l => l.2.lineNo) = List.range' 1 lines.length) :
    quotedLines db orderId = (db.pricingLinesOf pricingId).map Prod.snd := by
  have hnumbers : (db.pricingLinesOf pricingId).map (fun c => c.2.lineNo) = List.range' 1 lines.length := by
    rw [← hnumbered, ← copies_lineNo hcopies, List.map_map]
    rfl
  have hsorted : (db.pricingLinesOf pricingId).Pairwise lineOrder := by
    have hincreasing := List.pairwise_lt_range' (s := 1) (n := lines.length)
    rw [← hnumbers, List.pairwise_map] at hincreasing
    exact hincreasing.imp fun hlt => .inl hlt
  simp only [quotedLines, hpricing, List.head?_cons, hsorted.insertionSort_eq]

/-- A re-quotation succeeds with the amounts of the revision. -/
def RequotesMoney (env : Env) (db : QuotationDb) (orderId revisionId : ℕ) : Prop :=
  ∃ db' quotationId newId r r', createQuotationFromServiceOrder env db orderId = .ok (db', quotationId, newId) ∧
    db.revisions.get? revisionId = some r ∧ db'.revisions.get? newId = some r' ∧ r'.amounts.total = r.amounts.total ∧
      List.Forall₂ SameMoney ((db.linesOf revisionId).map Prod.snd) ((db'.linesOf newId).map Prod.snd)

section
variable {env : Env} {db : QuotationDb} {orderId : ℕ} {order : QuotedOrder} {direction : NamedRecord}

/-- What a re-quotation that was saved establishes. -/
theorem saveQuotation_requotation (hdb : RevisionsNumbered db) {db' : QuotationDb} {quotationId newId : ℕ}
    (h : saveQuotation env db (requotation env db orderId order direction) = .ok (db', quotationId, newId))
    (hlines : ∀ l ∈ quotedLines db orderId, pricingLineSchema (requotedLine l) = [] →
      (strip l.description).length ≤ 1000 ∧ ∀ unit ∈ l.unitCode, (strip unit).length ≤ 32) :
    BodyAccepted env db orderId order direction ∧ ∃ routed priced rows,
      pricedLinesFrom routed 0 ((quotedLines db orderId).map requotedLine) = .ok priced ∧
        pricedRowsFrom newId 1 priced = .ok rows ∧ (db'.linesOf newId).map Prod.snd = rows := by
  have hvalid : quotationWriteSchema (requotation env db orderId order direction) = [] := by
    simp only [saveQuotation, bind_eq_ok] at h
    obtain ⟨_, hvalid, -⟩ := h
    exact check_eq_ok.1 hvalid
  obtain ⟨headed, opened, dated, saved, hheaded, hopened, hdated, hsaved, rfl⟩ := saveQuotation_steps h
  obtain ⟨hparty, hdirection, hnumber⟩ := quotationOf_requotation hheaded
  simp only [saveRevisionChildren, bind_eq_ok] at hsaved
  obtain ⟨boxed, hboxed, routed, hrouted, hpriced⟩ := hsaved
  have hrequirements : (requotation env db orderId order direction).containerRequirements =
      .value ((db.requirementsOf orderId).map fun c => requotedContainer c.2) := rfl
  have hstops : (requotation env db orderId order direction).places = .value ((db.orderRoute orderId).map requotedStop) := rfl
  have hroles : boxed.placeRoles = db.placeRoles := by
    rw [(saveContainers_route hdated hboxed).1]
    exact (openedRoute hdb hheaded hopened).1
  have hroute := (savePlaces_requoted _ _ hstops).1 ⟨routed, hrouted⟩
  rw [hroles] at hroute
  have hsent : (requotation env db orderId order direction).pricedRows =
      some (.value ((quotedLines db orderId).map requotedLine)) := rfl
  simp only [savePricingLines, hsent, bind_eq_ok, rowsOf_value, pure_eq_ok] at hpriced
  obtain ⟨_, ⟨hschema, rfl⟩, priced, hpriced, rows, hrows, amounts, -, rfl⟩ := hpriced
  rw [List.forall_mem_map] at hschema
  refine ⟨⟨hvalid, hparty, hdirection, hnumber, (saveContainers_requoted _ hrequirements).1 ⟨boxed, hboxed⟩, hroute,
    fun l hl => hlines l hl (hschema l hl)⟩, routed, priced, rows, hpriced, hrows, ?_⟩
  exact rewritten_linesOf routed.lines (pricedRowsFrom_parent hrows)

/-- A re-quotation is saved with the amounts of its source. -/
theorem BodyAccepted.saveQuotation (h : BodyAccepted env db orderId order direction) (hdb : RevisionsNumbered db)
    {lines : List QuotationRevisionLine} {amounts : Amounts} (hrevision : PricedRevision amounts lines)
    (hcopies : List.Forall₂ CopiesMoney lines (quotedLines db orderId)) (hlines : ∀ l ∈ lines, l.Requotable) :
    ∃ db' quotationId newId r', saveQuotation env db (requotation env db orderId order direction) = .ok (db', quotationId, newId) ∧
      db'.revisions.get? newId = some r' ∧ r'.amounts = amounts ∧
        List.Forall₂ SameMoney lines ((db'.linesOf newId).map Prod.snd) := by
  obtain ⟨headed, hheaded⟩ := h.quotationOf
  obtain ⟨parties, directions, sequences, quotations, heq, -⟩ := quotationOf_spec hheaded
  have hrevisions : headed.revisions = db.revisions := by rw [heq]
  have hnone : latestRevision headed db.quotations.nextId = none := by
    have hrows := (revisionsNumbered_iff.1 hdb).1.revisionsOf_nextId
    rw [lifecycle_revisionsOf] at hrows
    rw [latestRevision_congr hrevisions]
    exact latestRevision_eq_none.2 (List.map_eq_nil_iff.1 hrows)
  generalize hp : requotation env db orderId order direction = p at hheaded
  cases hopened : editableRevision env headed p db.quotations.nextId with
  | mk opened newId =>
    have hfirst : ∃ r, opened.revisions.get? newId = some r ∧ r.validUntil = none := by
      unfold editableRevision at hopened
      simp only [hnone, Prod.mk.injEq] at hopened
      obtain ⟨rfl, rfl⟩ := hopened
      refine ⟨_, Table.get?_insert_self _ _, ?_⟩
      rw [← hp]
      rfl
    obtain ⟨r, hr, huntil⟩ := hfirst
    have hunlimited : (r.withHeader p).validUntil = none := by
      rw [QuotationRevision.withHeader, huntil, ← hp]
      rfl
    have hdated : saveRevisionHeader opened newId p =
        .ok { opened with revisions := opened.revisions.modify newId fun r => r.withHeader p } := by
      simp only [saveRevisionHeader, hr, Option.mem_def, Option.some.injEq, forall_eq', hunlimited, reduceCtorEq,
        false_imp_iff, implies_true, check, if_true, ok_bind]
      rfl
    have hdatedRow : (opened.revisions.modify newId fun r => r.withHeader p).get? newId = some (r.withHeader p) := by
      rw [Table.get?_modify_self, hr]
      rfl
    have hrequirements : p.containerRequirements =
        .value ((db.requirementsOf orderId).map fun c => requotedContainer c.2) := by
      rw [← hp]
      rfl
    have hstops : p.places = .value ((db.orderRoute orderId).map requotedStop) := by
      rw [← hp]
      rfl
    obtain ⟨boxed, hboxed⟩ := (saveContainers_requoted newId hrequirements).2 h.containers
    obtain ⟨types, containers, hboxedEq⟩ := saveContainers_spec hboxed
    have hroles : boxed.placeRoles = db.placeRoles := by
      rw [(saveContainers_route hdated hboxed).1]
      exact (openedRoute hdb hheaded hopened).1
    obtain ⟨routed, hrouted⟩ := (savePlaces_requoted boxed newId hstops).2 (hroles.symm ▸ h.route)
    obtain ⟨places, hroutedEq⟩ := savePlaces_spec hrouted
    have hrow : routed.revisions.get? newId = some (r.withHeader p) := by
      rw [hroutedEq, hboxedEq]
      exact hdatedRow
    -- the lines and their totals
    obtain ⟨priced, rows, hpricedLines, hrows, hsame, hsubtotals, hdiscounts, htaxes⟩ := sameMoney_of_requotable hcopies
      hrevision.priced hrevision.rolledUp.balanced hlines routed newId 0 1
    have hamounts := pricedAmounts_requoted hrevision.rolledUp hrevision.priced (pricedLinesFrom_checked hpricedLines)
      hsubtotals hdiscounts htaxes
    have hschema : ∀ l ∈ quotedLines db orderId, pricingLineSchema (requotedLine l) = [] := fun l hl =>
      (pricingLineSchemas_requoted hcopies hrevision.priced hrevision.rolledUp.balanced l hl).2 (h.texts l hl)
    have hsent : p.pricedRows = some (.value ((quotedLines db orderId).map requotedLine)) := by
      rw [← hp]
      rfl
    have hsaved : ∃ saved, savePricingLines routed newId p = .ok saved ∧
        saved.revisions.get? newId = some { r.withHeader p with amounts := amounts } ∧
          (saved.linesOf newId).map Prod.snd = rows := by
      have hschemas : ∀ l ∈ (quotedLines db orderId).map requotedLine, pricingLineSchema l = [] :=
        List.forall_mem_map.2 hschema
      refine ⟨{ routed with
        lines := (routed.lines.erase fun _ l => l.quotationRevisionId == newId).insertAll rows
        revisions := routed.revisions.modify newId fun r => { r with amounts := amounts } }, ?_, ?_, ?_⟩
      · simp only [savePricingLines, hsent, rowsOf_value.2 ⟨hschemas, rfl⟩, ok_bind, hpricedLines, hrows, hamounts]
        rfl
      · simp only [Table.get?_modify_self, hrow, Option.map_some]
      · exact rewritten_linesOf routed.lines (pricedRowsFrom_parent hrows)
    obtain ⟨saved, hsaved, hsavedRow, hsavedLines⟩ := hsaved
    refine ⟨modifyQuotation saved db.quotations.nextId fun q => { q with data := q.data.merge p }, db.quotations.nextId,
      newId, { r.withHeader p with amounts := amounts }, ?_, hsavedRow, rfl, hsavedLines ▸ hsame⟩
    rw [LcsSystem.saveQuotation, RecordSchema.validate, ← hp, h.header, hp]
    simp only [check, if_true, ok_bind, hheaded, hopened, hdated, saveRevisionChildren, hboxed, hrouted, hsaved]
    rfl

end

/-- **Re-quotation preserves money** exactly where the rows of the order are taken again and every converted line is
requotable. -/
theorem requotation_money {db : QuotationDb} (hdb : Quoting db) (as : List QuotationOperation) (env : Env)
    {orderId revisionId : ℕ} {order : QuotedOrder}
    (horder : (run operationStep db as).orders.get? orderId = some order)
    (hsource : order.quotationRevisionId = some revisionId) :
    RequotesMoney env (run operationStep db as) orderId revisionId ↔
      ∃ direction, (run operationStep db as).directions.get? order.tradeDirectionId = some direction ∧
        Reacceptable env (run operationStep db as) orderId order direction ∧
          ∀ l ∈ ((run operationStep db as).linesOf revisionId).map Prod.snd, l.Requotable := by
  have hreached : Quoting (run operationStep db as) := run_invariant Quoting (fun _ a h => h.step a) as hdb
  generalize run operationStep db as = reached at *
  obtain ⟨revisionId', r, pricingId, pricing, hsource', hr, -, hpricing, hcopies⟩ := hreached.orders orderId order horder
  rw [hsource, Option.some.injEq] at hsource'
  subst hsource'
  have hrevision : PricedRevision r.amounts ((reached.linesOf revisionId).map Prod.snd) := hreached.priced.rows revisionId r hr
  have hnumbered : (reached.linesOf revisionId).map (fun l => l.2.lineNo) =
      List.range' 1 (reached.linesOf revisionId).length := by
    have hnumbers := hrevision.numbered
    rw [List.map_map, List.length_map] at hnumbers
    exact hnumbers
  have hquoted := quotedLines_eq hpricing hcopies hnumbered
  have hmoney : List.Forall₂ CopiesMoney ((reached.linesOf revisionId).map Prod.snd) (quotedLines reached orderId) := by
    rw [hquoted, List.forall₂_map_left_iff]
    exact hcopies.imp fun _ _ hcopy => hcopy.money
  have hcreate : ∀ out, createQuotationFromServiceOrder env reached orderId = .ok out ↔
      ∃ direction, reached.directions.get? order.tradeDirectionId = some direction ∧
        saveQuotation env reached (requotation env reached orderId order direction) = .ok out := by
    intro out
    simp only [createQuotationFromServiceOrder, bind_eq_ok, require_eq_ok, horder, Option.some.injEq, exists_eq_left']
  constructor
  · rintro ⟨db', quotationId, newId, r₁, r', hout, hr₁, -, -, hsame⟩
    obtain ⟨direction, hdirection, hsaved⟩ := (hcreate _).1 hout
    have hschemas := pricingLineSchemas_requoted hmoney hrevision.priced hrevision.rolledUp.balanced
    obtain ⟨haccepted, routed, priced, rows, hpriced, hrows, hrowsEq⟩ :=
      saveQuotation_requotation hreached.numbered hsaved fun l hl hschema => (hschemas l hl).1 hschema
    refine ⟨direction, hdirection, bodyAccepted_iff.1 haccepted, ?_⟩
    exact requotable_of_sameMoney hmoney hrevision.priced hrevision.rolledUp.balanced hpriced hrows (hrowsEq ▸ hsame)
  · rintro ⟨direction, hdirection, haccepted, hlines⟩
    obtain ⟨db', quotationId, newId, r', hsaved, hr', hamounts, hsame⟩ :=
      (bodyAccepted_iff.2 haccepted).saveQuotation hreached.numbered hrevision hmoney hlines
    exact ⟨db', quotationId, newId, r, r', (hcreate _).2 ⟨direction, hdirection, hsaved⟩, hr, hr', by rw [hamounts], hsame⟩

theorem office_quoting : Quoting office where
  numbered := office_numbered
  commercial := office_commercial
  priced := {
    rows := fun _ _ hr => by cases hr
    keys := .empty _ _ }
  orders _ _ ho := by cases ho

/-- A quotation at `unitPrice`, submitted and converted. -/
def convertedAt (unitPrice : ℚ) : List QuotationOperation :=
  [.request (.save january { freight with
      pricingLines := .value [{
        feeTypeId := .absent
        feeType := .absent
        transportBy := .absent
        description := .value "Trucking"
        quantity := .value 3
        unitPrice := .value unitPrice
        unitAmount := .absent
        discount := .absent
        discountAmount := .absent
        tax := .absent
        taxAmount := .absent
        taxRate := .value 10
        unit := .absent }] }),
    .request (.submit 1), .request (.convert january 1 none)]

def convertedOrder : QuotedOrder := ⟨"SO2024-000001", some 1, 1, 1, "USD", none, some 1⟩

theorem requotation_money_converted :
    RequotesMoney january (run operationStep office (convertedAt (3333 / 100))) 1 1 ↔
      ∃ direction, (run operationStep office (convertedAt (3333 / 100))).directions.get? convertedOrder.tradeDirectionId =
          some direction ∧ Reacceptable january (run operationStep office (convertedAt (3333 / 100))) 1 convertedOrder direction ∧
        ∀ l ∈ ((run operationStep office (convertedAt (3333 / 100))).linesOf 1).map Prod.snd, l.Requotable :=
  requotation_money office_quoting (convertedAt (3333 / 100)) january (by decide +kernel) rfl

/-- Three units at 33.335 are a tie between two cents: the tax comes back one cent higher. -/
theorem requoted_tax_differs :
    ¬∀ as env orderId order revisionId, (run operationStep office as).orders.get? orderId = some order →
      order.quotationRevisionId = some revisionId → RequotesMoney env (run operationStep office as) orderId revisionId := by
  intro h
  have hother : okAnd (createQuotationFromServiceOrder january (run operationStep office (convertedAt (33335 / 1000))) 1)
      (fun out => (out.1.linesOf out.2.2).map (fun l => l.2.lineTax.val) = [1001 / 100] ∧
        ((run operationStep office (convertedAt (33335 / 1000))).linesOf 1).map (fun l => l.2.lineTax.val) = [10]) = true := by
    decide +kernel
  have horder : (run operationStep office (convertedAt (33335 / 1000))).orders.get? 1 = some convertedOrder := by
    decide +kernel
  obtain ⟨db', quotationId, newId, r, r', hcreate, -, -, -, hsame⟩ := h _ january 1 convertedOrder 1 horder rfl
  obtain ⟨out, hout, hnew, hold⟩ := okAnd_eq_true.1 hother
  rw [hcreate, Except.ok.injEq] at hout
  subst hout
  have htaxes : ∀ {lines rows : List QuotationRevisionLine}, List.Forall₂ SameMoney lines rows →
      rows.map (fun l => l.lineTax.val) = lines.map fun l => l.lineTax.val := by
    intro lines rows hlines
    induction hlines with
    | nil => rfl
    | cons hline _ ih => rw [List.map_cons, List.map_cons, hline.tax, ih]
  have hequal := htaxes hsame
  rw [List.map_map, List.map_map] at hequal
  have htax : [1001 / 100] = [(10 : ℚ)] := hnew.symm.trans (hequal.trans hold)
  norm_num at htax

end LcsSystem
