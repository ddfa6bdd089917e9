import LcsSystem.Finance.ManualJournals
import LcsSystem.Finance.PostedDocuments
import LcsSystem.Lib.Transition

/-!
# What a run can do to the journals

Every operation that writes journal tables is a `JournalStep`: POSTED rows are kept as they are, and
a row that becomes POSTED is balanced and inside a period that is OPEN, and was not CLOSED before.
`run_journals` carries this over every order of operations, periods being closed and reopened in
between.
-/

namespace LcsSystem
open Calendar Relational DecimalArith Checks Transition

/-! ## POSTED rows -/

/-- Every POSTED entry of `old` is the same row in `db`. -/
def Frozen (old db : Db) : Prop :=
  ∀ id e, old.entries.get? id = some e → e.status = .posted → db.entries.get? id = some e

namespace Frozen

theorem refl (db : Db) : Frozen db db := fun _ _ he _ => he

theorem trans {a b c : Db} (hab : Frozen a b) (hbc : Frozen b c) : Frozen a c :=
  fun id e he hp => hbc id e (hab id e he hp) hp

theorem of_entries_eq {a b : Db} (h : b.entries = a.entries) : Frozen a b := fun _ _ he _ => by rw [h, he]

end Frozen

/-- An update that leaves the POSTED row alone keeps every POSTED row. -/
theorem frozen_modify {db : Db} {id : ℕ} {f : JournalEntry → JournalEntry}
    (h : ∀ old ∈ db.entries.get? id, old.status = .posted → f old = old) :
    Frozen db { db with entries := db.entries.modify id f } := by
  intro i e he hp
  by_cases hi : i = id
  · subst hi
    simp [he, h e he hp]
  · simpa [Table.get?_modify_of_ne f hi] using he

theorem insertEntry_frozen {db db' : Db} {e : JournalEntry} {id : ℕ} (h : insertEntry db e = .ok (db', id)) :
    Frozen db db' ∧ db'.periods = db.periods := by
  simp only [insertEntry, bind_eq_ok, pure_eq_ok] at h
  obtain ⟨_, -, h⟩ := h
  cases h
  exact ⟨fun _ _ he _ => Table.get?_insert_of_some he, rfl⟩

theorem updateEntry_frozen {db db' : Db} {id : ℕ} {f : JournalEntry → JournalEntry}
    (h : updateEntry db id f = .ok db') : Frozen db db' ∧ db'.periods = db.periods := by
  simp only [updateEntry, bind_eq_ok, check_eq_ok, pure_eq_ok] at h
  obtain ⟨_, hguard, rfl⟩ := h
  exact ⟨frozen_modify hguard, rfl⟩

theorem insertLines_frozen {db db' : Db} {id : ℕ} {lines : List JournalEntryLine}
    (h : insertLines db id lines = .ok db') : Frozen db db' ∧ db'.periods = db.periods := by
  simp only [insertLines, guardLines, bind_eq_ok, check_eq_ok, pure_eq_ok] at h
  obtain ⟨_, hguard, rfl⟩ := h
  exact ⟨frozen_modify fun old ho hp => by simp [hguard old ho hp], rfl⟩

theorem deleteLines_frozen {db db' : Db} {id : ℕ} (h : deleteLines db id = .ok db') :
    Frozen db db' ∧ db'.periods = db.periods := by
  simp only [deleteLines, guardLines, bind_eq_ok, check_eq_ok, pure_eq_ok] at h
  obtain ⟨_, hguard, rfl⟩ := h
  refine ⟨frozen_modify fun old ho hp => ?_, rfl⟩
  have hnil : old.lines = [] := by simpa [Option.mem_def.1 ho] using hguard old ho hp
  rw [← hnil]

theorem deleteEntry_frozen {db db' : Db} {id : ℕ} (h : deleteEntry db id = .ok db') :
    Frozen db db' ∧ db'.periods = db.periods := by
  simp only [deleteEntry, bind_eq_ok, check_eq_ok, pure_eq_ok] at h
  obtain ⟨_, hguard, rfl⟩ := h
  refine ⟨fun i e he hp => ?_, rfl⟩
  have hne : i ≠ id := by
    rintro rfl
    exact hguard e he hp
  simp [Table.get?_erase, he, hne, Option.filter]

/-! ## One operation -/

/-- What an operation may do to the journals. -/
structure JournalStep (db db' : Db) : Prop where
  frozen : Frozen db db'
  guarded : ∀ id e, db'.entries.get? id = some e → e.status = .posted →
    (∀ o, db.entries.get? id = some o → o.status ≠ .posted) →
    balancedLines e ∧ insideOpenPeriod db' e ∧
      ∀ p, e.accountingPeriodId.bind db.periods.get? = some p → p.status ≠ .closed

theorem JournalStep.of_entries_eq {db db' : Db} (h : db'.entries = db.entries) : JournalStep db db' where
  frozen := .of_entries_eq h
  guarded := fun _ e he hp hold => absurd hp (hold e (by rw [← h, he]))

/-- A transaction that keeps the periods it found, and commits. -/
theorem JournalStep.of_commit {db db' db'' : Db} (hfrozen : Frozen db db')
    (hperiods : ∀ i q, db.periods.get? i = some q → db'.periods.get? i = some q)
    (h : commit db db' = .ok db'') : JournalStep db db'' := by
  obtain ⟨rfl, hposts⟩ := commit_spec h
  refine ⟨hfrozen, fun id e he hp hold => ?_⟩
  obtain ⟨hopen, hbalanced⟩ := hposts id e he hp hold
  refine ⟨hbalanced, hopen, fun p hold => ?_⟩
  obtain ⟨q, hq, hstatus, -⟩ := hopen
  cases hid : e.accountingPeriodId with
  | none => simp [hid] at hold
  | some periodId =>
    rw [hid] at hold hq
    have hkept : db''.periods.get? periodId = some p := hperiods _ _ hold
    have hsame : p = q := by simpa using hkept.symm.trans hq
    rw [hsame, hstatus]
    exact PeriodStatus.noConfusion

theorem postDocument_step {env : Env} {db db' : Db} {documentId : ℕ} (h : postDocument env db documentId = .ok db') :
    JournalStep db db' := by
  obtain ⟨d, -, ⟨-, rfl⟩ | ⟨-, w, rfl, hcommit⟩⟩ := postDocument_spec h
  · exact .of_entries_eq rfl
  · obtain ⟨-, -, hkept⟩ := resolvePeriod_spec w.period_ok
    exact .of_commit (fun _ _ he _ => Table.get?_insert_of_some he) hkept hcommit

theorem reverseDocument_step {env : Env} {db db' : Db} {documentId : ℕ} {reason : String}
    (h : reverseDocument env db documentId reason = .ok db') : JournalStep db db' := by
  obtain ⟨d, -, -, w, writes, -, rfl, hcommit⟩ := reverseDocument_spec h
  obtain ⟨-, -, hkept⟩ := resolvePeriod_spec w.period_ok
  exact .of_commit (fun _ _ he _ => Table.get?_insert_of_some he) hkept hcommit

theorem writeHeader_frozen {env : Env} {db db' : Db} {p : JournalPayload} {periodId id : ℕ}
    (h : writeHeader env db p periodId = .ok (db', id)) : Frozen db db' ∧ db'.periods = db.periods := by
  unfold writeHeader at h
  split at h
  · obtain ⟨hfrozen, hperiods⟩ := insertEntry_frozen h
    exact ⟨hfrozen, hperiods⟩
  · simp only [bind_eq_ok, pure_eq_ok] at h
    obtain ⟨_, -, db₁, hupdate, h⟩ := h
    cases h
    exact updateEntry_frozen hupdate

theorem saveJournal_step {env : Env} {db db' : Db} {p : JournalPayload} {id : ℕ}
    (h : saveJournal env db p = .ok (db', id)) : JournalStep db db' := by
  simp only [saveJournal, bind_eq_ok, pure_eq_ok] at h
  obtain ⟨_, -, ⟨periods, periodId, period⟩, hperiod, lines, -, ⟨db₁, i⟩, h₁, db₂, h₂, drafts, -, rows, -, _, -, _, -,
    db₃, h₃, db₄, h₄, db₅, hcommit, h⟩ := h
  cases h
  obtain ⟨-, -, hkept⟩ := resolvePeriod_spec hperiod
  obtain ⟨f₁, p₁⟩ := writeHeader_frozen h₁
  obtain ⟨f₂, p₂⟩ := deleteLines_frozen h₂
  obtain ⟨f₃, p₃⟩ := insertLines_frozen h₃
  obtain ⟨f₄, p₄⟩ := updateEntry_frozen h₄
  have hperiods : db₄.periods = periods := by rw [p₄, p₃, p₂, p₁]
  refine .of_commit (.trans (.of_entries_eq rfl) (f₁.trans (f₂.trans (f₃.trans f₄)))) ?_ hcommit
  rw [hperiods]
  exact hkept

theorem postJournalBody_frozen {env : Env} {db db' : Db} {journalId : ℕ}
    (h : postJournalBody env db journalId = .ok db') : Frozen db db' ∧ db'.periods = db.periods := by
  simp only [postJournalBody, bind_eq_ok] at h
  obtain ⟨e, -, h⟩ := h
  split at h
  · cases h
    exact ⟨.refl _, rfl⟩
  · simp only [flushPosting, bind_eq_ok] at h
    obtain ⟨_, -, _, -, _, -, h⟩ := h
    exact updateEntry_frozen h

theorem postJournal_step {env : Env} {db db' : Db} {journalId : ℕ} (h : postJournal env db journalId = .ok db') :
    JournalStep db db' := by
  simp only [postJournal, bind_eq_ok] at h
  obtain ⟨db₁, hbody, hcommit⟩ := h
  obtain ⟨hfrozen, hperiods⟩ := postJournalBody_frozen hbody
  exact .of_commit hfrozen (by rw [hperiods]; exact fun _ _ hq => hq) hcommit

theorem deleteAll_frozen {ids : List ℕ} {db db' : Db} (h : deleteAll ids db = .ok db') :
    Frozen db db' ∧ db'.periods = db.periods := by
  induction ids generalizing db with
  | nil => cases h; exact ⟨.refl _, rfl⟩
  | cons id ids ih =>
    unfold deleteAll at h
    split at h
    · exact ih h
    · simp only [bind_eq_ok] at h
      obtain ⟨_, -, db₁, h₁, db₂, h₂, h⟩ := h
      obtain ⟨f₁, p₁⟩ := deleteLines_frozen h₁
      obtain ⟨f₂, p₂⟩ := deleteEntry_frozen h₂
      obtain ⟨f₃, p₃⟩ := ih h
      exact ⟨f₁.trans (f₂.trans f₃), by rw [p₃, p₂, p₁]⟩

theorem deleteJournals_step {db db' : Db} {ids : List ℕ} (h : deleteJournals db ids = .ok db') :
    JournalStep db db' := by
  simp only [deleteJournals, bind_eq_ok] at h
  obtain ⟨db₁, hdelete, hcommit⟩ := h
  obtain ⟨hfrozen, hperiods⟩ := deleteAll_frozen hdelete
  exact .of_commit hfrozen (by rw [hperiods]; exact fun _ _ hq => hq) hcommit

/-! ## Runs -/

/-- A request of the ledger, with the clock and caller it runs under. -/
inductive LedgerAction
  | saveJournal (env : Env) (p : JournalPayload)
  | postJournal (env : Env) (journalId : ℕ)
  | deleteJournals (ids : List ℕ)
  | postDocument (env : Env) (documentId : ℕ)
  | reverseDocument (env : Env) (documentId : ℕ) (reason : String)
  | updatePeriod (periodId : ℕ) (status : Field String)
  | closePeriod (env : Env) (periodId : ℕ)
  | reopenPeriod (periodId : ℕ)

def LedgerAction.request (db : Db) : LedgerAction → Result Db
  | .saveJournal env p => Prod.fst <$> LcsSystem.saveJournal env db p
  | .postJournal env id => LcsSystem.postJournal env db id
  | .deleteJournals ids => LcsSystem.deleteJournals db ids
  | .postDocument env id => LcsSystem.postDocument env db id
  | .reverseDocument env id reason => LcsSystem.reverseDocument env db id reason
  | .updatePeriod id status => LcsSystem.updatePeriod db id status
  | .closePeriod env id => LcsSystem.closePeriod env db id
  | .reopenPeriod id => LcsSystem.reopenPeriod db id

def ledgerStep (db : Db) (a : LedgerAction) : Db := orKeep db (a.request db)

/-- **Step lemma.** -/
theorem ledgerStep_journalStep (db : Db) (a : LedgerAction) : JournalStep db (ledgerStep db a) := by
  unfold ledgerStep
  cases h : a.request db with
  | error e => exact .of_entries_eq rfl
  | ok db' =>
    simp only [orKeep]
    cases a with
    | saveJournal env p =>
      simp only [LedgerAction.request, map_eq_ok] at h
      obtain ⟨⟨db₁, id⟩, hsave, rfl⟩ := h
      exact saveJournal_step hsave
    | postJournal env id => exact postJournal_step h
    | deleteJournals ids => exact deleteJournals_step h
    | postDocument env id => exact postDocument_step h
    | reverseDocument env id reason => exact reverseDocument_step h
    | updatePeriod id status => exact .of_entries_eq (by rw [updatePeriod_frame h])
    | closePeriod env id => exact .of_entries_eq (by rw [closePeriod_frame h])
    | reopenPeriod id => exact .of_entries_eq (by rw [reopenPeriod_frame h])

/-- Every POSTED entry has two lines or more and one positive sum on both sides. -/
def PostedBalanced (db : Db) : Prop := ∀ id e, db.entries.get? id = some e → e.status = .posted → balancedLines e

theorem ledgerStep_postedBalanced (db : Db) (a : LedgerAction) (h : PostedBalanced db) :
    PostedBalanced (ledgerStep db a) := by
  intro id e he hp
  have hstep := ledgerStep_journalStep db a
  by_cases hold : ∃ o, db.entries.get? id = some o ∧ o.status = .posted
  · obtain ⟨o, ho, hop⟩ := hold
    have hsame : e = o := by simpa [he] using hstep.frozen id o ho hop
    exact hsame ▸ h id o ho hop
  · exact (hstep.guarded id e he hp fun o ho hop => hold ⟨o, ho, hop⟩).1

theorem run_frozen (db : Db) (as : List LedgerAction) : Frozen db (run ledgerStep db as) :=
  run_relation Frozen .refl .trans (fun s a => (ledgerStep_journalStep s a).frozen) db as

/-- **The journals over a run.** Before, at and after any request of any run: a POSTED entry is the
same row for ever, every POSTED entry is balanced, and an entry only becomes POSTED in a period that
was not CLOSED and is OPEN. -/
theorem run_journals {db : Db} (h : PostedBalanced db) (before : List LedgerAction) (a : LedgerAction)
    (later : List LedgerAction) :
    let s := run ledgerStep db before
    let s' := ledgerStep s a
    (∀ id e, s.entries.get? id = some e → e.status = .posted →
      s'.entries.get? id = some e ∧ (run ledgerStep s' later).entries.get? id = some e) ∧
    (∀ id e, s.entries.get? id = some e → e.status = .posted →
      2 ≤ e.lines.length ∧ debitSum e.lines = creditSum e.lines ∧ 0 < debitSum e.lines) ∧
    (∀ id e, s'.entries.get? id = some e → e.status = .posted →
      (∀ o, s.entries.get? id = some o → o.status ≠ .posted) →
      (∃ p, e.accountingPeriodId.bind s'.periods.get? = some p ∧ p.status = .opened) ∧
        ∀ p, e.accountingPeriodId.bind s.periods.get? = some p → p.status ≠ .closed) := by
  intro s s'
  have hstep : JournalStep s s' := ledgerStep_journalStep s a
  have hbalanced : PostedBalanced s := run_invariant PostedBalanced ledgerStep_postedBalanced before h
  refine ⟨fun id e he hp => ?_, fun id e he hp => ?_, fun id e he hp hold => ?_⟩
  · have hkept := hstep.frozen id e he hp
    exact ⟨hkept, run_frozen s' later id e hkept hp⟩
  · obtain ⟨htwo, hpos, heq⟩ := hbalanced id e he hp
    exact ⟨htwo, heq, hpos⟩
  · obtain ⟨-, ⟨p, hperiod, hopen, -⟩, hclosed⟩ := hstep.guarded id e he hp hold
    exact ⟨⟨p, hperiod, hopen⟩, hclosed⟩

/-- A cash sale of 10. -/
def cashSale : JournalPayload :=
  { JournalPayload.empty with lines := .value [.ofAmounts "1020" 10 0, .ofAmounts "4020" 0 10] }

theorem fresh_postedBalanced (c : CurrencyCode) : PostedBalanced (Db.fresh c) := fun _ _ he => by cases he

/-- A posted cash sale survives the request to delete it and the closing of its period. -/
theorem run_journals_cashSale :
    let s := run ledgerStep (Db.fresh usd) [.saveJournal january cashSale, .postJournal january 1]
    let s' := ledgerStep s (.deleteJournals [1])
    ∃ e, s.entries.get? 1 = some e ∧ s'.entries.get? 1 = some e ∧
      (run ledgerStep s' [.closePeriod january 1]).entries.get? 1 = some e ∧ debitSum e.lines = creditSum e.lines := by
  intro s s'
  have hposted : ∃ e ∈ s.entries.get? 1, e.status = .posted := by decide +kernel
  obtain ⟨e, he, hp⟩ := hposted
  obtain ⟨hkept, hbalanced, -⟩ := run_journals (fresh_postedBalanced usd)
    [.saveJournal january cashSale, .postJournal january 1] (.deleteJournals [1]) [.closePeriod january 1]
  obtain ⟨hnext, hlater⟩ := hkept 1 e he hp
  exact ⟨e, he, hnext, hlater, (hbalanced 1 e he hp).2.1⟩

/-! ## The service's checks and the trigger's -/

theorem checkSides_spec {index : ℕ} {lines : List JournalEntryLine} (h : checkSides index lines = .ok ⟨⟩) :
    ∀ l ∈ lines, oneSided l := by
  induction lines generalizing index with
  | nil => simp
  | cons l ls ih =>
    simp only [checkSides, bind_eq_ok, check_eq_ok] at h
    obtain ⟨_, hl, hls⟩ := h
    exact List.forall_mem_cons.2 ⟨hl, ih hls⟩

/-- The service's checks establish all that the trigger asks of the lines. -/
theorem checkPostable_balanced {db : Db} {e : JournalEntry} (h : checkPostable db e = .ok ⟨⟩) : balancedLines e := by
  simp only [checkPostable, bind_eq_ok, check_eq_ok] at h
  obtain ⟨_, htwo, _, hsides, _, ⟨hsum, hne⟩, -⟩ := h
  have hnonneg : 0 ≤ debitSum e.lines := by
    refine List.sum_nonneg fun x hx => ?_
    obtain ⟨l, hl, rfl⟩ := List.mem_map.1 hx
    exact (checkSides_spec hsides l hl).1
  exact ⟨htwo, lt_of_le_of_ne hnonneg (Ne.symm hne), hsum⟩

theorem flushPosting_spec {env : Env} {db db' : Db} {journalId : ℕ} {e : JournalEntry}
    (h : flushPosting env db journalId e = .ok db') :
    ∃ debitTotal creditTotal, storeMoney (debitSum e.lines) = .ok debitTotal ∧
      storeMoney (creditSum e.lines) = .ok creditTotal ∧
      db' = { db with entries := db.entries.modify journalId (postedRow env debitTotal creditTotal) } := by
  simp only [flushPosting, updateEntry, bind_eq_ok, pure_eq_ok] at h
  obtain ⟨debitTotal, hdebit, creditTotal, hcredit, _, -, rfl⟩ := h
  exact ⟨debitTotal, creditTotal, hdebit, hcredit, rfl⟩

/-- **The service's guard against the trigger's.** When `post_journal` accepts a draft, its `COMMIT`
succeeds exactly when the period row is there, is OPEN and spans the entry date: the two guards agree
on the lines and differ on the period. -/
theorem postJournal_commits_iff {env : Env} {db db' : Db} {journalId : ℕ} {e : JournalEntry}
    (he : db.entries.get? journalId = some e) (hdraft : e.status = .draft)
    (hbody : postJournalBody env db journalId = .ok db') :
    (commit db db').isOk = true ↔ ∃ p, e.accountingPeriodId.bind db.periods.get? = some p ∧
      p.status = .opened ∧ p.startDate ≤ e.entryDate ∧ e.entryDate ≤ p.endDate := by
  simp only [postJournalBody, he, require, ok_bind, hdraft, bind_eq_ok] at hbody
  obtain ⟨_, hchecks, hflush⟩ := hbody
  have hbalanced := checkPostable_balanced hchecks
  obtain ⟨debitTotal, creditTotal, hdebit, hcredit, rfl⟩ := flushPosting_spec hflush
  -- The flushed row is the only one the trigger is queued for.
  have hqueued : ∀ x, x ∈ newlyPosted db
      { db with entries := db.entries.modify journalId (postedRow env debitTotal creditTotal) } ↔
      x = postedRow env debitTotal creditTotal e := by
    intro x
    rw [mem_newlyPosted]
    constructor
    · rintro ⟨id, hx, hposted, hold⟩
      by_cases hid : id = journalId
      · subst hid
        simpa [he, eq_comm] using hx
      · rw [Table.get?_modify_of_ne _ hid] at hx
        exact absurd hposted (hold x hx)
    · rintro rfl
      refine ⟨journalId, by simp [he], rfl, fun o ho => ?_⟩
      rw [he, Option.some.injEq] at ho
      rw [← ho, hdraft]
      exact EntryStatus.noConfusion
  simp only [commit_isOk_iff, hqueued, forall_eq, validateJournalPost_eq_ok]
  constructor
  · rintro ⟨⟨p, hp, hopen⟩, -⟩
    exact ⟨p, hp, hopen⟩
  · rintro ⟨p, hp, hopen⟩
    exact ⟨⟨p, hp, hopen⟩, hbalanced, ⟨debitTotal, hdebit⟩, creditTotal, hcredit⟩

/-- Entered for 31 January, posted on 1 February. -/
def straddlingSale : JournalPayload :=
  { cashSale with
    entryDate := .value january31
    postingDate := .value february1 }

/-- The service accepts it in the open period of February, and the trigger refuses the commit. -/
theorem postJournal_accepted_then_refused :
    ∃ r, saveJournal january (Db.fresh usd) straddlingSale = .ok r ∧
      ∃ db', postJournalBody january r.1 r.2 = .ok db' ∧
        validateAll db' (newlyPosted r.1 db') =
          .error (.database "Journal JE2024-000001 must post inside an open accounting period") ∧
        (commit r.1 db').isOk = false := by
  obtain ⟨r, hsave, hpost⟩ := okAnd_eq_true.1
    (show okAnd (saveJournal january (Db.fresh usd) straddlingSale) (fun r =>
      okAnd (postJournalBody january r.1 r.2) (fun db' =>
        validateAll db' (newlyPosted r.1 db') =
          .error (.database "Journal JE2024-000001 must post inside an open accounting period") ∧
        (commit r.1 db').isOk = false) = true) = true by decide +kernel)
  exact ⟨r, hsave, okAnd_eq_true.1 hpost⟩

/-- The sale entered and posted in January commits. -/
theorem postJournal_cashSale_commits :
    ∃ r, saveJournal january (Db.fresh usd) cashSale = .ok r ∧
      ∃ db', postJournalBody january r.1 r.2 = .ok db' ∧ (commit r.1 db').isOk = true := by
  obtain ⟨r, hsave, e, he, hdraft, hperiod, hpost⟩ := okAnd_eq_true.1
    (show okAnd (saveJournal january (Db.fresh usd) cashSale) (fun r => ∃ e ∈ r.1.entries.get? r.2,
      e.status = .draft ∧
      (∃ p ∈ e.accountingPeriodId.bind r.1.periods.get?,
        p.status = .opened ∧ p.startDate ≤ e.entryDate ∧ e.entryDate ≤ p.endDate) ∧
      (postJournalBody january r.1 r.2).isOk = true) = true by decide +kernel)
  obtain ⟨db', hbody⟩ := isOk_eq_true.1 hpost
  obtain ⟨p, hp, hopen⟩ := hperiod
  exact ⟨r, hsave, db', hbody, (postJournal_commits_iff he hdraft hbody).2 ⟨p, hp, hopen⟩⟩

end LcsSystem
