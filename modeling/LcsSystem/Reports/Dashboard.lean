import LcsSystem.Finance.PostingRules
import LcsSystem.Reports.Statements

/-!
# Receivables and payables on the dashboard

`receivables`, `payables`, the aging buckets and their part of `dashboard`
(`src/backend/app/modules/reports/service.py:39-144, 552-596, 729-794`) without the cache. A reported float is read as the
decimal it prints.

| here                  | there                                                                |
|-----------------------|----------------------------------------------------------------------|
| `openDocuments`       | the `WHERE` of `receivables` and `payables`                          |
| `reportRow`           | an item of their lists; `customer` and `supplier` are `party`        |
| `agingBucket`         | `_aging_bucket`                                                      |
| `bucketize`           | `_bucketize`                                                         |
| `DashboardSide`       | the total and the aging of one list                                  |

The amounts of a row are those of the document, in its own currency, and `dashboard` adds them up as they are.
-/

namespace Calendar.Date

/-- Days before the first of January. -/
def daysBeforeYear (year : ℕ) : ℕ := (year - 1) * 365 + (year - 1) / 4 - (year - 1) / 100 + (year - 1) / 400

def daysBeforeMonth (year month : ℕ) : ℕ := ((List.range (month - 1)).map fun m => daysInMonth year (m + 1)).sum

/-- `d.toordinal()`. -/
def dayNumber (d : Date) : ℕ := daysBeforeYear d.year + daysBeforeMonth d.year d.month + d.day

end Calendar.Date

namespace LcsSystem
open Calendar Relational DecimalArith

/-! ## The lists -/

structure ReportRow where
  id : ℕ
  documentNo : String
  partyId : Option ℕ
  party : String
  jobNo : String
  documentDate : Date
  dueDate : Option Date
  currency : CurrencyCode
  total : ℚ
  paid : ℚ
  balance : ℚ
  aging : String
  status : String

/-- The posted documents of a type. -/
def openDocuments (db : Db) (documentType : DocType) : List (ℕ × Document) :=
  db.documents.rows.filter fun r => decide (r.2.documentType = documentType) && decide (r.2.status = .posted)

def Document.outstanding (d : Document) : ℚ := d.amounts.total.val - d.paidAmount.val

/-- `(today - due).days`. -/
def daysOverdue (today due : Date) : ℤ := today.dayNumber - due.dayNumber

def agingText (today : Date) : Option Date → String
  | some due => if 0 < daysOverdue today due then toString (daysOverdue today due) ++ "d" else ""
  | none => ""

def settlementStatus (outstanding paid : ℚ) : String :=
  if outstanding ≤ 0 then "PAID" else if paid ≠ 0 then "PARTIAL" else "OPEN"

/-- `displayNames` is `business_parties.display_name`. -/
def reportRow (db : Db) (displayNames : Table String) (today : Date) (r : ℕ × Document) : ReportRow where
  id := r.1
  documentNo := r.2.documentNo
  partyId := r.2.partyId
  party := (r.2.partyId.bind displayNames.get?).getD ""
  jobNo := ((r.2.serviceOrderId.bind db.serviceOrders.get?).map ServiceOrder.serviceOrderNo).getD ""
  documentDate := r.2.documentDate
  dueDate := r.2.dueDate
  currency := r.2.currencyCode
  total := r.2.amounts.total.val
  paid := r.2.paidAmount.val
  balance := r.2.outstanding
  aging := agingText today r.2.dueDate
  status := settlementStatus r.2.outstanding r.2.paidAmount.val

def receivables (db : Db) (displayNames : Table String) (today : Date) : List ReportRow :=
  (openDocuments db .customerInvoice).map (reportRow db displayNames today)

def payables (db : Db) (displayNames : Table String) (today : Date) : List ReportRow :=
  (openDocuments db .supplierBill).map (reportRow db displayNames today)

/-! ## Aging -/

inductive AgingKey
  | notDue | d1to30 | d31to60 | d61to90 | d90plus
  deriving DecidableEq, Repr

def AgingKey.key : AgingKey → String
  | .notDue => "not_due"
  | .d1to30 => "d1_30"
  | .d31to60 => "d31_60"
  | .d61to90 => "d61_90"
  | .d90plus => "d90_plus"

/-- `_AGING_BUCKETS`. -/
def agingBuckets : List AgingKey := [.notDue, .d1to30, .d31to60, .d61to90, .d90plus]

def agingBucket (due today : Date) : AgingKey :=
  let days := daysOverdue today due
  if days ≤ 0 then .notDue
  else if days ≤ 30 then .d1to30
  else if days ≤ 60 then .d31to60
  else if days ≤ 90 then .d61to90
  else .d90plus

abbrev Aging := List (AgingKey × ℚ)

def emptyAging : Aging := agingBuckets.map fun key => (key, 0)

def bucketize (aging : Aging) (due today : Date) (outstanding : ℚ) : Aging :=
  aging.map fun item => if item.1 = agingBucket due today then (item.1, round4 (item.2 + max outstanding 0)) else item

/-- `row.get("dueDate") or row.get("documentDate")`. -/
def ReportRow.due (row : ReportRow) : Date := row.dueDate.getD row.documentDate

/-- One turn of the loop over the rows. -/
def ageRow (today : Date) (aging : Aging) (row : ReportRow) : Aging :=
  if row.balance ≤ 0 then aging else bucketize aging row.due today row.balance

structure DashboardSide where
  total : ℚ
  aging : Aging

def dashboardSide (today : Date) (rows : List ReportRow) : DashboardSide where
  total := round4 (rows.map ReportRow.balance).sum
  aging := rows.foldl (ageRow today) emptyAging

def overdueCount (today : Date) (rows : List ReportRow) : ℕ :=
  (rows.filter fun row => decide (0 < row.balance) && decide (agingBucket row.due today ≠ .notDue)).length

structure Dashboard where
  receivables : DashboardSide
  overdueReceivableCount : ℕ
  payables : DashboardSide

def dashboard (db : Db) (displayNames : Table String) (today : Date) : Dashboard where
  receivables := dashboardSide today (receivables db displayNames today)
  overdueReceivableCount := overdueCount today (receivables db displayNames today)
  payables := dashboardSide today (payables db displayNames today)

/-! ## What the figures are to say -/

/-- The days overdue that a bucket is for. -/
def AgingKey.Holds (days : ℤ) : AgingKey → Prop
  | .notDue => days ≤ 0
  | .d1to30 => 1 ≤ days ∧ days ≤ 30
  | .d31to60 => 31 ≤ days ∧ days ≤ 60
  | .d61to90 => 61 ≤ days ∧ days ≤ 90
  | .d90plus => 91 ≤ days

instance AgingKey.decidableHolds (days : ℤ) : ∀ key : AgingKey, Decidable (key.Holds days)
  | .notDue | .d90plus => inferInstanceAs (Decidable (_ ≤ _))
  | .d1to30 | .d31to60 | .d61to90 => inferInstanceAs (Decidable (_ ∧ _))

/-- The day a document falls due, that of the document where none is set. -/
def Document.due (d : Document) : Date := d.dueDate.getD d.documentDate

/-- What is still to be paid of a document, in the base currency. -/
def Document.baseOutstanding (d : Document) : ℚ := d.outstanding * d.exchangeRate.val

/-- What the documents of a bucket have outstanding. -/
def bucketTotal (documents : List (ℕ × Document)) (today : Date) (key : AgingKey) : ℚ :=
  ((documents.filter fun r => decide (0 < r.2.outstanding) && decide (key.Holds (daysOverdue today r.2.due))).map
    fun r => r.2.outstanding).sum

structure SideHolds (documents : List (ℕ × Document)) (today : Date) (side : DashboardSide) : Prop where
  inBase : side.total = (documents.map fun r => r.2.baseOutstanding).sum
  buckets : (side.aging.map Prod.snd).sum = side.total
  placed : side.aging = agingBuckets.map fun key => (key, bucketTotal documents today key)

/-- The total is in the base currency, the buckets add up to it, and every document is in the bucket of its days. -/
structure DashboardHolds (db : Db) (displayNames : Table String) (today : Date) : Prop where
  receivables : SideHolds (openDocuments db .customerInvoice) today (dashboard db displayNames today).receivables
  payables : SideHolds (openDocuments db .supplierBill) today (dashboard db displayNames today).payables

/-! ## Buckets -/

theorem holds_iff {due today : Date} {key : AgingKey} : key.Holds (daysOverdue today due) ↔ key = agingBucket due today := by
  unfold agingBucket
  cases key <;> simp only [AgingKey.Holds] <;> split_ifs <;> simp <;> omega

/-- A document is in exactly one bucket. -/
theorem existsUnique_holds (due today : Date) : ∃! key : AgingKey, key.Holds (daysOverdue today due) :=
  ⟨agingBucket due today, holds_iff.2 rfl, fun _ h => holds_iff.1 h⟩

theorem sum_buckets (bucket : AgingKey) (x : ℚ) : (agingBuckets.map fun key => if key = bucket then x else 0).sum = x := by
  cases bucket <;> simp [agingBuckets]

theorem scaled_outstanding (d : Document) : Scaled 4 d.outstanding := d.amounts.total.scaled.sub d.paidAmount.scaled

/-- What one document adds to a bucket. -/
def bucketShare (d : Document) (today : Date) (key : AgingKey) : ℚ :=
  if key = agingBucket d.due today then max d.outstanding 0 else 0

theorem scaled_bucketShare (d : Document) (today : Date) (key : AgingKey) : Scaled 4 (bucketShare d today key) := by
  unfold bucketShare
  split
  · rcases max_choice d.outstanding 0 with h | h <;> rw [h]
    · exact scaled_outstanding d
    · exact scaled_zero 4
  · exact scaled_zero 4

theorem bucketTotal_cons (r : ℕ × Document) (documents : List (ℕ × Document)) (today : Date) (key : AgingKey) :
    bucketTotal (r :: documents) today key = bucketShare r.2 today key + bucketTotal documents today key := by
  unfold bucketTotal bucketShare
  by_cases hpos : 0 < r.2.outstanding
  · by_cases hkey : key = agingBucket r.2.due today
    · simp [hpos, holds_iff, hkey, max_eq_left hpos.le]
    · simp [holds_iff, hkey]
  · simp [hpos, max_eq_right (not_lt.1 hpos)]

/-- One turn of the loop on the row of a document. -/
theorem ageRow_reportRow (db : Db) (displayNames : Table String) (today : Date) (r : ℕ × Document) {f : AgingKey → ℚ}
    (hf : ∀ key, Scaled 4 (f key)) :
    ageRow today (agingBuckets.map fun key => (key, f key)) (reportRow db displayNames today r) =
      agingBuckets.map fun key => (key, f key + bucketShare r.2 today key) := by
  unfold ageRow
  split
  · next hpaid =>
    have hnone : max r.2.outstanding 0 = 0 := max_eq_right hpaid
    refine List.map_congr_left fun key _ => ?_
    simp [bucketShare, hnone]
  · unfold bucketize
    rw [List.map_map]
    refine List.map_congr_left fun key _ => ?_
    have hround : round4 (f key + bucketShare r.2 today key) = f key + bucketShare r.2 today key :=
      round4_of_scaled ((hf key).add (scaled_bucketShare r.2 today key))
    by_cases hkey : key = agingBucket r.2.due today
    · rw [bucketShare, if_pos hkey] at hround ⊢
      have hcond : key = agingBucket (reportRow db displayNames today r).due today := hkey
      simp only [Function.comp_apply, if_pos hcond]
      rw [show (reportRow db displayNames today r).balance = r.2.outstanding from rfl, hround]
    · have hcond : ¬key = agingBucket (reportRow db displayNames today r).due today := hkey
      simp [hcond, bucketShare, hkey]

theorem foldl_ageRow (db : Db) (displayNames : Table String) (today : Date) (documents : List (ℕ × Document))
    {f : AgingKey → ℚ} (hf : ∀ key, Scaled 4 (f key)) :
    (documents.map (reportRow db displayNames today)).foldl (ageRow today) (agingBuckets.map fun key => (key, f key)) =
      agingBuckets.map fun key => (key, f key + bucketTotal documents today key) := by
  induction documents generalizing f with
  | nil => simp [bucketTotal]
  | cons r documents ih =>
    rw [List.map_cons, List.foldl_cons, ageRow_reportRow db displayNames today r hf,
      ih fun key => (hf key).add (scaled_bucketShare r.2 today key)]
    refine List.map_congr_left fun key _ => ?_
    rw [bucketTotal_cons, add_assoc]

theorem sum_bucketTotal (documents : List (ℕ × Document)) (today : Date) :
    (agingBuckets.map (bucketTotal documents today)).sum = (documents.map fun r => max r.2.outstanding 0).sum := by
  induction documents with
  | nil => simp [bucketTotal, agingBuckets]
  | cons r documents ih =>
    have hcons : bucketTotal (r :: documents) today = fun key => bucketShare r.2 today key + bucketTotal documents today key :=
      funext (bucketTotal_cons r documents today)
    rw [hcons, List.sum_map_add, ih, List.map_cons, List.sum_cons]
    congr 1
    exact sum_buckets (agingBucket r.2.due today) (max r.2.outstanding 0)

/-! ## When the figures hold -/

/-- What the rates would change in the outstanding amounts cancels out; so it does where every rate is 1. -/
def ConversionsCancel (documents : List (ℕ × Document)) : Prop :=
  (documents.map fun r => r.2.outstanding * (r.2.exchangeRate.val - 1)).sum = 0

/-- No document is paid beyond its total. -/
def NoneOverpaid (documents : List (ℕ × Document)) : Prop := ∀ r ∈ documents, 0 ≤ r.2.outstanding

theorem sum_max_eq_iff {α : Type} (f : α → ℚ) (xs : List α) :
    (xs.map fun x => max (f x) 0).sum = (xs.map f).sum ↔ ∀ x ∈ xs, 0 ≤ f x := by
  induction xs with
  | nil => simp
  | cons x xs ih =>
    have hle : (xs.map f).sum ≤ (xs.map fun x => max (f x) 0).sum := List.sum_le_sum fun x _ => le_max_left _ _
    have hx : f x ≤ max (f x) 0 := le_max_left _ _
    rw [List.forall_mem_cons, ← ih, List.map_cons, List.sum_cons, List.map_cons, List.sum_cons]
    constructor
    · intro h
      exact ⟨max_eq_left_iff.1 (by linarith), by linarith⟩
    · rintro ⟨hpos, hsum⟩
      rw [max_eq_left hpos, hsum]

theorem sideHolds_iff (db : Db) (displayNames : Table String) (today : Date) (documents : List (ℕ × Document)) :
    SideHolds documents today (dashboardSide today (documents.map (reportRow db displayNames today))) ↔
      ConversionsCancel documents ∧ NoneOverpaid documents := by
  have hbalances : (documents.map (reportRow db displayNames today)).map ReportRow.balance =
      documents.map fun r => r.2.outstanding := by simp [reportRow, Function.comp_def]
  have htotal : (dashboardSide today (documents.map (reportRow db displayNames today))).total =
      (documents.map fun r => r.2.outstanding).sum := by
    unfold dashboardSide
    rw [hbalances]
    refine round4_of_scaled (Scaled.sum fun x hx => ?_)
    obtain ⟨r, -, rfl⟩ := List.mem_map.1 hx
    exact scaled_outstanding r.2
  have haging : (dashboardSide today (documents.map (reportRow db displayNames today))).aging =
      agingBuckets.map fun key => (key, bucketTotal documents today key) := by
    have hfold := foldl_ageRow db displayNames today documents (f := fun _ => 0) fun _ => scaled_zero 4
    simpa [dashboardSide, emptyAging] using hfold
  have hbuckets : ((dashboardSide today (documents.map (reportRow db displayNames today))).aging.map Prod.snd).sum =
      (documents.map fun r => max r.2.outstanding 0).sum := by
    rw [haging, List.map_map]
    exact sum_bucketTotal documents today
  have hbase : (documents.map fun r => r.2.baseOutstanding).sum =
      (documents.map fun r => r.2.outstanding).sum +
        (documents.map fun r => r.2.outstanding * (r.2.exchangeRate.val - 1)).sum := by
    rw [← List.sum_map_add]
    congr 1
    refine List.map_congr_left fun r _ => ?_
    unfold Document.baseOutstanding
    ring
  have hover := sum_max_eq_iff (fun r : ℕ × Document => r.2.outstanding) documents
  constructor
  · intro h
    refine ⟨?_, hover.1 (by rw [← hbuckets, h.buckets, htotal])⟩
    have hin := h.inBase
    rw [htotal, hbase] at hin
    unfold ConversionsCancel
    linarith
  · rintro ⟨hcancel, hpaid⟩
    refine ⟨?_, ?_, haging⟩
    · rw [htotal, hbase, hcancel, add_zero]
    · rw [hbuckets, htotal]
      exact hover.2 hpaid

theorem scaled_fourMillion : Scaled 4 (4000000 : ℚ) := by decide +kernel

theorem fourMillion_bounded : |(4000000 : ℚ)| < 10 ^ (19 - 4) := by norm_num

theorem scaled_rielRate : Scaled 8 (1 / 4000 : ℚ) := by decide +kernel

theorem rielRate_bounded : |(1 / 4000 : ℚ)| < 10 ^ (19 - 8) := by norm_num

/-- Four million riels, of which nothing is paid; in US dollars they are a thousand. -/
def rielBill : Document where
  documentNo := "INV-1"
  documentType := .customerInvoice
  documentDate := january31
  postingDate := some january31
  status := .posted
  partyId := none
  serviceOrderId := none
  currencyCode := khr
  exchangeRate := ⟨1 / 4000, scaled_rielRate, rielRate_bounded⟩
  baseCurrencyCode := some usd
  description := none
  referenceNumber := none
  dueDate := none
  paymentMethodCode := none
  financialAccountId := none
  valueDate := none
  amounts := ⟨0, 0, 0, ⟨4000000, scaled_fourMillion, fourMillion_bounded⟩⟩
  baseAmounts := 0
  paidAmount := 0
  createdByUserId := none
  postedByUserId := none
  documentTypeId := none
  lines := []

end LcsSystem
