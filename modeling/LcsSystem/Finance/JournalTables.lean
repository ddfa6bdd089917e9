import LcsSystem.Finance.Periods

/-!
# The journal tables under their triggers

Every write to `journal_entries` and `journal_entry_lines` passes the PostgreSQL triggers of
`src/backend/alembic/versions/e6f7a8b9c0d1_reporting_views_and_integrity.py`, with the purge flag
off.

| here | there |
|---|---|
| `updateEntry`, `deleteEntry` | `trg_journal_guard`, `fn_guard_journal_entry` |
| `insertLines`, `deleteLines` | `trg_journal_line_guard`, `fn_guard_journal_line` |
| `validateJournalPost`, `commit` | `trg_journal_post_check`, `fn_validate_journal_post`, deferred to `COMMIT` |

The deferred trigger fires for the entries that became POSTED in the transaction; a POSTED entry can
no longer change, so its row at `COMMIT` is the row the trigger was queued with.
-/

namespace LcsSystem
open Calendar Relational DecimalArith Checks

/-! ## Immediate triggers -/

/-- `INSERT INTO journal_entries`, with `uq_journal_entries_no`. -/
def insertEntry (db : Db) (e : JournalEntry) : Result (Db × ℕ) := do
  check (∀ old ∈ db.entries.values, old.entryNo ≠ e.entryNo)
    (.database "duplicate key value violates unique constraint uq_journal_entries_no")
  return ({ db with entries := db.entries.insert e }, db.entries.nextId)

/-- `UPDATE journal_entries … WHERE id`: a POSTED row only accepts the values it has. -/
def updateEntry (db : Db) (id : ℕ) (f : JournalEntry → JournalEntry) : Result Db := do
  check (∀ old ∈ db.entries.get? id, old.status = .posted → f old = old)
    (.database "Posted journal is immutable; reverse it instead")
  return { db with entries := db.entries.modify id f }

/-- `DELETE FROM journal_entries WHERE id`. -/
def deleteEntry (db : Db) (id : ℕ) : Result Db := do
  check (∀ old ∈ db.entries.get? id, old.status ≠ .posted)
    (.database "Posted journal cannot be deleted; reverse it instead")
  return { db with entries := db.entries.erase fun i _ => i == id }

/-- The row trigger on the lines of entry `id`, fired once per line written. -/
def guardLines (db : Db) (id : ℕ) (lines : List JournalEntryLine) : Result PUnit :=
  check (∀ old ∈ db.entries.get? id, old.status = .posted → lines = [])
    (.database "Lines of posted journal cannot change; reverse it instead")

def insertLines (db : Db) (id : ℕ) (lines : List JournalEntryLine) : Result Db := do
  guardLines db id lines
  return { db with entries := db.entries.modify id fun e => { e with lines := e.lines ++ lines } }

def deleteLines (db : Db) (id : ℕ) : Result Db := do
  guardLines db id (((db.entries.get? id).map JournalEntry.lines).getD [])
  return { db with entries := db.entries.modify id fun e => { e with lines := [] } }

/-! ## The deferred trigger -/

def debitSum (lines : List JournalEntryLine) : ℚ := (lines.map fun l => l.debitAmount.val).sum
def creditSum (lines : List JournalEntryLine) : ℚ := (lines.map fun l => l.creditAmount.val).sum

def baseDebitSum (lines : List JournalEntryLine) : ℚ := (lines.map fun l => l.baseDebitAmount.val).sum
def baseCreditSum (lines : List JournalEntryLine) : ℚ := (lines.map fun l => l.baseCreditAmount.val).sum

/-- The entry's period exists, is OPEN and spans its entry date. -/
def insideOpenPeriod (db : Db) (e : JournalEntry) : Prop :=
  ∃ p ∈ e.accountingPeriodId.bind db.periods.get?,
    p.status = .opened ∧ p.startDate ≤ e.entryDate ∧ e.entryDate ≤ p.endDate

instance (db : Db) (e : JournalEntry) : Decidable (insideOpenPeriod db e) :=
  inferInstanceAs (Decidable (∃ p ∈ _, _))

/-- At least two lines, and the two sides have one positive sum. -/
def balancedLines (e : JournalEntry) : Prop :=
  2 ≤ e.lines.length ∧ 0 < debitSum e.lines ∧ debitSum e.lines = creditSum e.lines

instance (e : JournalEntry) : Decidable (balancedLines e) := inferInstanceAs (Decidable (_ ∧ _))

def validateJournalPost (db : Db) (e : JournalEntry) : Result PUnit := do
  check (insideOpenPeriod db e) (.database ("Journal " ++ e.entryNo ++ " must post inside an open accounting period"))
  let deb ← storeMoney (debitSum e.lines)
  let cred ← storeMoney (creditSum e.lines)
  check (2 ≤ e.lines.length ∧ 0 < deb.val ∧ deb.val = cred.val) (.database
    ("Journal " ++ e.entryNo ++ " must contain at least two balanced lines (debit " ++ moneyText deb.val ++
      ", credit " ++ moneyText cred.val ++ ")"))

/-- The entries of `db` that became POSTED since `old`. -/
def newlyPosted (old db : Db) : List JournalEntry :=
  (db.entries.rows.filter fun r =>
    decide (r.2.status = .posted) && !(old.entries.get? r.1).any fun e => e.status == .posted).map Prod.snd

def validateAll (db : Db) : List JournalEntry → Result PUnit
  | [] => .ok ⟨⟩
  | e :: es => do
    validateJournalPost db e
    validateAll db es

/-- `COMMIT` of a transaction that started from `old`. -/
def commit (old db : Db) : Result Db := do
  validateAll db (newlyPosted old db)
  return db

/-! ## Column sums -/

theorem scaled_debitSum (lines : List JournalEntryLine) : Scaled 4 (debitSum lines) := by
  refine Scaled.sum fun x hx => ?_
  obtain ⟨l, -, rfl⟩ := List.mem_map.1 hx
  exact l.debitAmount.scaled

theorem scaled_creditSum (lines : List JournalEntryLine) : Scaled 4 (creditSum lines) := by
  refine Scaled.sum fun x hx => ?_
  obtain ⟨l, -, rfl⟩ := List.mem_map.1 hx
  exact l.creditAmount.scaled

/-- **What the deferred trigger lets through**: balanced lines in an open period, whose sums fit the
trigger's `NUMERIC(19,4)` variables. -/
theorem validateJournalPost_eq_ok {db : Db} {e : JournalEntry} :
    validateJournalPost db e = .ok ⟨⟩ ↔ insideOpenPeriod db e ∧ balancedLines e ∧
      (∃ deb, storeMoney (debitSum e.lines) = .ok deb) ∧ ∃ cred, storeMoney (creditSum e.lines) = .ok cred := by
  have hdebit {deb : Money} (h : storeMoney (debitSum e.lines) = .ok deb) : deb.val = debitSum e.lines := by
    rw [val_of_store h, roundHalfUp_of_scaled (scaled_debitSum _)]
  have hcredit {cred : Money} (h : storeMoney (creditSum e.lines) = .ok cred) : cred.val = creditSum e.lines := by
    rw [val_of_store h, roundHalfUp_of_scaled (scaled_creditSum _)]
  unfold validateJournalPost
  simp only [bind_eq_ok, check_eq_ok]
  constructor
  · rintro ⟨_, hperiod, deb, hdeb, cred, hcred, htwo, hpos, heq⟩
    exact ⟨hperiod, ⟨htwo, hdebit hdeb ▸ hpos, by rw [← hdebit hdeb, ← hcredit hcred, heq]⟩, ⟨deb, hdeb⟩, cred, hcred⟩
  · rintro ⟨hperiod, ⟨htwo, hpos, heq⟩, ⟨deb, hdeb⟩, cred, hcred⟩
    exact ⟨⟨⟩, hperiod, deb, hdeb, cred, hcred, htwo, by rwa [hdebit hdeb], by rw [hdebit hdeb, hcredit hcred, heq]⟩

theorem validateAll_eq_ok {db : Db} {es : List JournalEntry} :
    validateAll db es = .ok ⟨⟩ ↔ ∀ e ∈ es, validateJournalPost db e = .ok ⟨⟩ := by
  induction es with
  | nil => simp [validateAll]
  | cons e es ih =>
    simp only [validateAll, bind_eq_ok, List.forall_mem_cons, ← ih]
    constructor
    · rintro ⟨_, he, hes⟩
      exact ⟨he, hes⟩
    · rintro ⟨he, hes⟩
      exact ⟨_, he, hes⟩

/-- The trigger is queued for the entries that are POSTED now and were not before. -/
theorem mem_newlyPosted {old db : Db} {e : JournalEntry} :
    e ∈ newlyPosted old db ↔ ∃ id, db.entries.get? id = some e ∧ e.status = .posted ∧
      ∀ o, old.entries.get? id = some o → o.status ≠ .posted := by
  have hany (id : ℕ) : ((old.entries.get? id).any fun o => o.status == .posted) = false ↔
      ∀ o, old.entries.get? id = some o → o.status ≠ .posted := by
    cases old.entries.get? id <;> simp
  simp only [newlyPosted, List.mem_map, List.mem_filter, Bool.and_eq_true, decide_eq_true_eq, Bool.not_eq_true', hany]
  constructor
  · rintro ⟨⟨id, e⟩, ⟨hmem, hposted, hold⟩, rfl⟩
    exact ⟨id, Table.get?_eq_some.2 hmem, hposted, hold⟩
  · rintro ⟨id, he, hposted, hold⟩
    exact ⟨(id, e), ⟨Table.get?_eq_some.1 he, hposted, hold⟩, rfl⟩

theorem commit_isOk_iff {old db : Db} :
    (commit old db).isOk = true ↔ ∀ e ∈ newlyPosted old db, validateJournalPost db e = .ok ⟨⟩ := by
  rw [← validateAll_eq_ok, isOk_eq_true]
  constructor
  · rintro ⟨db', h⟩
    simp only [commit, bind_eq_ok] at h
    obtain ⟨_, hall, -⟩ := h
    exact hall
  · intro h
    exact ⟨db, by simp [commit, h, pure, Except.pure]⟩

/-- **What a commit guarantees**: it keeps the state, and every entry that became POSTED is balanced
and inside its open period. -/
theorem commit_spec {old db db' : Db} (h : commit old db = .ok db') :
    db' = db ∧ ∀ id e, db.entries.get? id = some e → e.status = .posted →
      (∀ o, old.entries.get? id = some o → o.status ≠ .posted) → insideOpenPeriod db e ∧ balancedLines e := by
  simp only [commit, bind_eq_ok, pure_eq_ok] at h
  obtain ⟨_, hall, rfl⟩ := h
  refine ⟨rfl, fun id e he hposted hold => ?_⟩
  obtain ⟨hperiod, hbalanced, -⟩ :=
    validateJournalPost_eq_ok.1 (validateAll_eq_ok.1 hall e (mem_newlyPosted.2 ⟨id, he, hposted, hold⟩))
  exact ⟨hperiod, hbalanced⟩

end LcsSystem
