import LcsSystem.Finance.Models

/-!
# Accounting periods and document numbers

`resolve_period`, `update_period`, `close_period` and `reopen_period`
(`src/backend/app/modules/finance/service.py:320-389`) and `allocate_number`
(`src/backend/app/core/sequences.py:24`).
-/

namespace LcsSystem
open Calendar Relational Checks

/-! ## Periods -/

/-- The month of `d`, open. -/
def AccountingPeriod.month (d : Date) : AccountingPeriod where
  periodYear := d.year
  periodMonth := d.month
  startDate := d.firstOfMonth
  endDate := d.lastOfMonth
  status := .opened
  closedByUserId := none

theorem AccountingPeriod.month_covers (d : Date) : (AccountingPeriod.month d).covers d = true :=
  decide_eq_true ⟨d.firstOfMonth_le, d.le_lastOfMonth⟩

/-- The period that covers a date; a date no period covers gets the whole month of it. -/
def resolvePeriod (periods : Table AccountingPeriod) (d : Date) :
    Result (Table AccountingPeriod × ℕ × AccountingPeriod) :=
  match periods.rows.find? fun r => r.2.covers d with
  | some r => .ok (periods, r.1, r.2)
  | none => do
    let period := AccountingPeriod.month d
    check (periods.values.all fun p => p.periodYear != d.year || p.periodMonth != d.month)
      (.database "duplicate key value violates unique constraint uq_periods_year_month")
    return (periods.insert period, periods.nextId, period)

/-- **What `resolvePeriod` leaves behind**: the period it names covers the date, and every period that
was there is unchanged. -/
theorem resolvePeriod_spec {periods periods' : Table AccountingPeriod} {d : Date} {id : ℕ} {p : AccountingPeriod}
    (h : resolvePeriod periods d = .ok (periods', id, p)) :
    periods'.get? id = some p ∧ p.covers d = true ∧
      ∀ i q, periods.get? i = some q → periods'.get? i = some q := by
  unfold resolvePeriod at h
  split at h
  · next r hr =>
    have hcovers : r.2.covers d = true := by simpa using List.find?_some hr
    cases h
    exact ⟨Table.get?_eq_some.2 (List.mem_of_find?_eq_some hr), hcovers, fun _ _ hq => hq⟩
  · simp only [bind_eq_ok, check_eq_ok, pure_eq_ok] at h
    obtain ⟨_, _, h⟩ := h
    cases h
    exact ⟨Table.get?_insert_self _ _, AccountingPeriod.month_covers d, fun _ _ hq => Table.get?_insert_of_some hq⟩

def PeriodStatus.ofText (s : String) : PeriodStatus :=
  if s = "OPEN" then .opened else if s = "CLOSED" then .closed else .other s

/-- `PERIOD_WRITE_SCHEMA`: the two spellings in any case, at most 20 characters. -/
def periodStatusItems (status : Field String) : List FieldErrorItem :=
  match TextSpec.check { key := "status", maxLength := some 20 } status with
  | [] =>
    match status.text.get? with
    | some s =>
      if upper s = "OPEN" ∨ upper s = "CLOSED" then []
      else [⟨"status", "INVALID_CHOICE", "Choose one of the available options."⟩]
    | none => []
  | items => items

def periodNotFound : Error := .notFound "Accounting period not found."

def updatePeriod (db : Db) (periodId : ℕ) (status : Field String) : Result Db := do
  let _ ← require (db.periods.get? periodId) periodNotFound
  RecordSchema.validate (periodStatusItems status)
  match status.text.get? with
  | none => return db
  | some s =>
    return { db with periods := db.periods.modify periodId fun p =>
      { p with
        status := .ofText (upper s)
        closedByUserId := if PeriodStatus.ofText (upper s) = .opened then none else p.closedByUserId } }

def closePeriod (env : Env) (db : Db) (periodId : ℕ) : Result Db := do
  let _ ← require (db.periods.get? periodId) periodNotFound
  return { db with periods := db.periods.modify periodId fun p =>
    { p with status := .closed, closedByUserId := env.userId } }

def reopenPeriod (db : Db) (periodId : ℕ) : Result Db := do
  let _ ← require (db.periods.get? periodId) periodNotFound
  return { db with periods := db.periods.modify periodId fun p =>
    { p with status := .opened, closedByUserId := none } }

/-- The three period operations write `accounting_periods` only. -/
theorem updatePeriod_frame {db db' : Db} {periodId : ℕ} {status : Field String}
    (h : updatePeriod db periodId status = .ok db') : db' = { db with periods := db'.periods } := by
  simp only [updatePeriod, bind_eq_ok] at h
  obtain ⟨_, -, _, -, h⟩ := h
  split at h
  · simp only [pure_eq_ok] at h; subst h; rfl
  · simp only [pure_eq_ok] at h; subst h; rfl

theorem closePeriod_frame {env : Env} {db db' : Db} {periodId : ℕ} (h : closePeriod env db periodId = .ok db') :
    db' = { db with periods := db'.periods } := by
  simp only [closePeriod, bind_eq_ok, pure_eq_ok] at h
  obtain ⟨_, -, rfl⟩ := h
  rfl

theorem reopenPeriod_frame {db db' : Db} {periodId : ℕ} (h : reopenPeriod db periodId = .ok db') :
    db' = { db with periods := db'.periods } := by
  simp only [reopenPeriod, bind_eq_ok, pure_eq_ok] at h
  obtain ⟨_, -, rfl⟩ := h
  rfl

/-! ## Document numbers -/

/-- `DEFAULT_PREFIXES`, and for any other type its first two letters. -/
def defaultPrefix (documentType : String) : String :=
  match [("QUOTATION", "Q"), ("SERVICE_ORDER", "SO"), ("SERVICE_CHARGE", "SC"), ("CUSTOMER_INVOICE", "INV"),
    ("CREDIT_NOTE", "CN"), ("SUPPLIER_BILL", "BILL"), ("SUPPLIER_CREDIT_NOTE", "SCN"),
    ("CUSTOMER_RECEIPT", "REC"), ("SUPPLIER_PAYMENT", "PAY"), ("JOURNAL", "JE")].lookup documentType with
  | some p => p
  | none => String.ofList (documentType.toList.take 2)

/-- `str(n).zfill(width)`. -/
def zfill (n width : ℕ) : String :=
  String.ofList (List.replicate (width - (toString n).length) '0') ++ toString n

def DocumentSequence.number (s : DocumentSequence) : String :=
  s.sequencePrefix ++ toString s.periodYear ++ "-" ++ zfill s.lastValue s.paddingLength

def DocumentSequence.next (s : DocumentSequence) : DocumentSequence := { s with lastValue := s.lastValue + 1 }

/-- The next number of the type's sequence of the current UTC year, which is created when missing. -/
def allocateNumber (env : Env) (sequences : Table DocumentSequence) (documentType : String) :
    Table DocumentSequence × String :=
  match sequences.rows.find? fun r => r.2.documentType == documentType && r.2.periodYear == env.utcYear with
  | some r => (sequences.modify r.1 .next, r.2.next.number)
  | none =>
    let sequence : DocumentSequence := {
      documentType := documentType
      periodYear := env.utcYear
      sequencePrefix := defaultPrefix documentType
      lastValue := 0
      paddingLength := 6 }
    (sequences.insert sequence.next, sequence.next.number)

example : DocumentSequence.number ⟨"JOURNAL", 2024, defaultPrefix "JOURNAL", 7, 6⟩ = "JE2024-000007" := by
  decide +kernel

end LcsSystem
