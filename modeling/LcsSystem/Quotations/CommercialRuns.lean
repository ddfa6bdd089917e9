import LcsSystem.Quotations.OrderCopies
import LcsSystem.Quotations.RevisionLines
import LcsSystem.Quotations.RollUp

/-!
# Roll-ups over runs

Every revision rolls up after every run (`Commercial`): a save writes all lines of one revision with its
totals, or none; a copy takes both along; the other requests see neither. A conversion that finds such a
state copies the revision to the order.
-/

namespace LcsSystem
open Relational DecimalArith Checks Transition

/-! ## The invariant -/

/-- Every revision rolls up and has a currency; rows refer to keys that were handed out. -/
structure Commercial (db : QuotationDb) : Prop where
  defaultCurrency : db.defaultCurrency ≠ ""
  currency : ∀ id r, db.revisions.get? id = some r → r.currencyCode ≠ ""
  rolledUp : ∀ id r, db.revisions.get? id = some r → RolledUp r.amounts ((db.linesOf id).map Prod.snd)
  lineKeys : db.lines.KeysBelow (fun l => some l.quotationRevisionId) db.revisions.nextId
  orderKeys : OrderKeys db

theorem OrderKeys.of_tables {db db' : QuotationDb} (h : OrderKeys db) (horders : db'.orders = db.orders)
    (hplaces : db'.orderPlaces = db.orderPlaces) (hrequirements : db'.requirements = db.requirements)
    (hboxes : db'.orderContainers = db.orderContainers) (hpricings : db'.pricings = db.pricings)
    (hlines : db'.pricingLines = db.pricingLines) : OrderKeys db' := by
  constructor <;> simp only [horders, hplaces, hrequirements, hboxes, hpricings, hlines]
  exacts [h.places, h.requirements, h.boxOrders, h.boxes, h.pricings, h.pricingLines]

theorem rolledUp_relation : LinesRelation RolledUp where
  nil := rolledUp_nil
  copy _ _ revisionId h := h.copy revisionId
  saved _ _ _ _ _ _ hpriced hrows hamounts := pricedAmounts_rolledUp (pricedLinesFrom_checked hpriced) hrows hamounts

namespace Commercial
variable {db db' : QuotationDb}

theorem everyRevision (h : Commercial db) : EveryRevision RolledUp db := ⟨h.rolledUp, h.lineKeys⟩

/-- A write of no order, which keeps the lines in order and the revisions' currencies. -/
theorem of_currency (h : Commercial db) (hwrite : QuotationWrite db db') (hdefault : db'.defaultCurrency = db.defaultCurrency)
    (hcurrency : ∀ id r, db'.revisions.get? id = some r → r.currencyCode ≠ "") (horders : OrderKeys db') :
    Commercial db' :=
  have hevery := h.everyRevision.write rolledUp_relation hwrite
  ⟨hdefault ▸ h.defaultCurrency, hcurrency, hevery.rows, hevery.keys, horders⟩

/-- The currency of an update that keeps it or sets one. -/
theorem currency_modify (h : Commercial db) {revisionId : ℕ} {f : QuotationRevision → QuotationRevision}
    (hf : ∀ r, r.currencyCode ≠ "" → (f r).currencyCode ≠ "") :
    ∀ id r, (db.revisions.modify revisionId f).get? id = some r → r.currencyCode ≠ "" := by
  intro id r hr
  rw [Table.get?_modify] at hr
  split at hr
  · rw [Option.map_eq_some_iff] at hr
    obtain ⟨s, hs, rfl⟩ := hr
    exact hf s (h.currency id s hs)
  · exact h.currency id r hr

/-- The currency of a body, or the one that is there. -/
theorem currency_getD_ne {f : Field String} {stored : String} (h : stored ≠ "") : f.text.get?.getD stored ≠ "" := by
  cases htext : f.text.get? with
  | none => exact h
  | some text => exact (text_get?_eq_some htext).2

theorem write (h : Commercial db) (hwrite : QuotationWrite db db') : Commercial db' := by
  have hkept : Commercial db → QuotationWrite db db' → db'.defaultCurrency = db.defaultCurrency →
      db'.revisions = db.revisions → OrderKeys db' → Commercial db' := by
    intro h hwrite hdefault hrevisions horders
    exact h.of_currency hwrite hdefault (fun id r hr => h.currency id r (hrevisions ▸ hr)) horders
  have hsame := h.orderKeys
  cases hwrite with
  | header parties directions sequences quotations =>
    exact hkept h (.header parties directions sequences quotations) rfl rfl (hsame.of_tables rfl rfl rfl rfl rfl rfl)
  | conversions conversions => exact hkept h (.conversions conversions) rfl rfl (hsame.of_tables rfl rfl rfl rfl rfl rfl)
  | first env quotationId quotationDate validUntil currency hcurrency =>
    have hne : currency.getD db.defaultCurrency ≠ "" := by
      cases currency with
      | none => exact h.defaultCurrency
      | some code => exact hcurrency code rfl
    exact h.of_currency (.first env quotationId quotationDate validUntil currency hcurrency) rfl
      (Table.forall_insert h.currency hne) (hsame.of_tables rfl rfl rfl rfl rfl rfl)
  | copy quotationId source userId hsource =>
    exact h.of_currency (.copy quotationId source userId hsource) rfl
      (Table.forall_insert h.currency (h.currency source.1 source.2 hsource)) (hsame.of_tables rfl rfl rfl rfl rfl rfl)
  | dates revisionId p hdraft hdated =>
    have hwrite := QuotationWrite.dates revisionId p hdraft hdated
    simp only [saveRevisionHeader, bind_eq_ok, pure_eq_ok] at hdated
    obtain ⟨_, -, rfl⟩ := hdated
    exact h.of_currency hwrite rfl (h.currency_modify fun _ => currency_getD_ne) (hsame.of_tables rfl rfl rfl rfl rfl rfl)
  | containers revisionId p hdraft hcontainers =>
    have hwrite := QuotationWrite.containers revisionId p hdraft hcontainers
    obtain ⟨types, containers, rfl⟩ := saveContainers_spec hcontainers
    exact hkept h hwrite rfl rfl (hsame.of_tables rfl rfl rfl rfl rfl rfl)
  | route revisionId p hdraft hplaces =>
    have hwrite := QuotationWrite.route revisionId p hdraft hplaces
    obtain ⟨places, rfl⟩ := savePlaces_spec hplaces
    exact hkept h hwrite rfl rfl (hsame.of_tables rfl rfl rfl rfl rfl rfl)
  | lines revisionId p hdraft hlines =>
    have hwrite := QuotationWrite.lines revisionId p hdraft hlines
    rcases savePricingLines_spec hlines with rfl | ⟨lines, amounts, rfl⟩
    · exact h
    · exact h.of_currency hwrite rfl (h.currency_modify fun _ => id) (hsame.of_tables rfl rfl rfl rfl rfl rfl)
  | status revisionId status hleft =>
    exact h.of_currency (.status revisionId status hleft) rfl (h.currency_modify fun _ => id)
      (hsame.of_tables rfl rfl rfl rfl rfl rfl)
  | order env quotation revision orderId hrevision hleft hcreate =>
    have hwrite := QuotationWrite.order env quotation revision orderId hrevision hleft hcreate
    have hkeys := h.orderKeys.create hcreate
    simp only [createServiceOrderFromQuotation, bind_eq_ok, check_eq_ok, pure_eq_ok, Prod.mk.injEq] at hcreate
    obtain ⟨_, -, rfl, -⟩ := hcreate
    exact hkept h hwrite rfl rfl hkeys
  | remove quotationId horders =>
    refine h.of_currency (.remove quotationId horders) rfl (fun id r hr => ?_) (hsame.of_tables rfl rfl rfl rfl rfl rfl)
    rw [removeQuotation, Table.get?_erase, Option.filter_eq_some_iff] at hr
    exact h.currency id r hr.1

/-- **Step lemma.** -/
theorem step (h : Commercial db) (a : QuotationOperation) : Commercial (operationStep db a) :=
  operationStep_invariant (fun _ _ h => h.write) h a

end Commercial

/-! ## Conversions -/

/-- A new conversion copies the revision to its order. -/
def ConvertsInFull (db : QuotationDb) : Prop :=
  ∀ env revisionId idempotencyKey db' orderId, conversionByKey db idempotencyKey = none →
    convertRevision env db revisionId idempotencyKey = .ok (db', orderId) →
      ∃ q r, db.revisions.get? revisionId = some r ∧ db.quotations.get? r.quotationId = some q ∧
        OrderCopies db db' q.data revisionId r orderId

theorem Commercial.convertsInFull {db : QuotationDb} (h : Commercial db) : ConvertsInFull db := by
  intro env revisionId idempotencyKey db' orderId hnew hconvert
  simp only [convertRevision, hnew, convertNew, bind_eq_ok, pure_eq_ok, Prod.mk.injEq] at hconvert
  obtain ⟨⟨q, r⟩, hread, _, -, _, -, ⟨ordered, order⟩, hordered, _, -, rfl, rfl⟩ := hconvert
  obtain ⟨hr, hq⟩ := revisionWithQuotation_eq_ok.1 hread
  -- what follows the order writes the conversion and the two statuses
  obtain ⟨horder, hpricing, hnumbered, hroute, hlegacy, hrequirements, hboxes⟩ :=
    createServiceOrderFromQuotation_copies h.orderKeys (h.currency revisionId r hr) hordered
  exact ⟨q, r, hr, hq, horder, hpricing, hnumbered, hroute, hlegacy,
    hrequirements.imp fun _ _ hcopy => ⟨hcopy.source, hcopy.containerType, hcopy.quantity, hcopy.grossWeightKg,
      hcopy.description, hcopy.remarks, hcopy.boxes⟩, hboxes⟩

/-- **Every revision rolls up** after every run: the total of each line follows from its amounts, those of the
revision are the sums over its lines. A conversion gives the order the same lines, totals, currency and
containers, and the same stops numbered from 1; without route rows, the stops of the header. -/
theorem revisions_rollUp {db : QuotationDb} (hdb : Commercial db) (as : List QuotationOperation) :
    (∀ id r, (run operationStep db as).revisions.get? id = some r →
      RolledUp r.amounts (((run operationStep db as).linesOf id).map Prod.snd)) ∧
      ConvertsInFull (run operationStep db as) := by
  have hreached : Commercial (run operationStep db as) :=
    run_invariant Commercial (fun _ a h => h.step a) as hdb
  exact ⟨hreached.rolledUp, hreached.convertsInFull⟩

/-- A stop at a role, by its id. -/
def stopAt (roleId : ℕ) (place : String) : RouteStopPayload where
  started := true
  id := .absent
  placeRoleId := .value (.id roleId)
  placeRole := .absent
  place := .value place
  planned := .absent
  actual := .absent
  notes := .absent

/-- Three units at 33.335, taxed at 10 %, in two and a half containers. -/
def freight : QuotationPayload :=
  { offer with
    places := .value [stopAt 1 "Harbour"]
    containerRequirements := .value [⟨.absent, .value (.text "40HC"), .value (5 / 2), .absent, .absent, .absent⟩]
    pricingLines := .value [{
      feeTypeId := .absent
      feeType := .absent
      transportBy := .absent
      description := .value "Trucking"
      quantity := .value 3
      unitPrice := .value (33335 / 1000)
      unitAmount := .absent
      discount := .absent
      discountAmount := .absent
      tax := .absent
      taxAmount := .absent
      taxRate := .value 10
      unit := .absent }] }

theorem office_commercial : Commercial office where
  defaultCurrency := by decide
  currency _ r hr := by cases hr
  rolledUp _ r hr := by cases hr
  lineKeys := .empty _ _
  orderKeys := ⟨.empty _ _, .empty _ _, .empty _ _, .empty _ _, .empty _ _, .empty _ _⟩

/-- Quoted, submitted, and quoted anew beside it. -/
def freightRun : List QuotationOperation :=
  [.request (.save january freight), .request (.submit 1), .request (.create january 1 .empty)]

theorem revisions_rollUp_freight :
    (∀ id r, (run operationStep office freightRun).revisions.get? id = some r →
      RolledUp r.amounts (((run operationStep office freightRun).linesOf id).map Prod.snd)) ∧
      ConvertsInFull (run operationStep office freightRun) :=
  revisions_rollUp office_commercial freightRun

example : (run operationStep office freightRun).revisions.values.map (fun r => (r.revisionNo, r.amounts.total.val)) =
    [(1, 11001 / 100), (2, 11001 / 100)] := by decide +kernel

/-- A quotation without route rows, with a pickup in its header, that is submitted. -/
def headerRoute : List QuotationOperation :=
  [.request (.save january { offer with pickup := .value "Harbour" }), .request (.submit 1)]

/-- The route of an order need not be that of its revision: the header's stop is one more. -/
theorem header_route_reaches_order :
    ¬∀ as env revisionId idempotencyKey db' orderId,
      convertRevision env (run operationStep office as) revisionId idempotencyKey = .ok (db', orderId) →
        List.Forall₂ CopiesStop (((run operationStep office as).placesOf revisionId).insertionSort placeOrder)
          (db'.orderRoute orderId) := by
  intro h
  have hextra : okAnd (convertRevision january (run operationStep office headerRoute) 1 none) (fun out =>
      ((run operationStep office headerRoute).placesOf 1).length = 0 ∧ (out.1.orderRoute out.2).length = 1) = true := by
    decide +kernel
  obtain ⟨⟨db', orderId⟩, hconvert, hnone, hone⟩ := okAnd_eq_true.1 hextra
  have hlength := (h headerRoute january 1 none db' orderId hconvert).length_eq
  rw [List.length_insertionSort, hnone, hone] at hlength
  cases hlength

end LcsSystem
