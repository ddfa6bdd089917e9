import LcsSystem.Reports.GeneralLedger

/-!
# Pages, stream and balances of the general ledger

Over any posted ledger and any filters the pages make up the exported stream, which has every line of the filter once;
the running balance of an account starts from its opening balance, and the last ones add up to the closing balance.
-/

namespace LcsSystem
open Calendar Relational Checks Grouping

/-- The movement of an account before the period, under the filters. -/
def accountOpening (db : ReportDb) (f : GeneralLedgerFilters) (scope : Scope) (accountId : ℕ) : ℚ :=
  groupSum LedgerLine.accountId LedgerLine.net
    (db.postedLedger.filter (ledgerConditions db f scope.isOpening)) accountId

/-- The running balance of the last listed row of an account, its opening balance without one. -/
def lastBalance (db : ReportDb) (f : GeneralLedgerFilters) (scope : Scope) (items : List LedgerItem) (accountId : ℕ) : ℚ :=
  (lastShown LedgerItem.accountId LedgerItem.runningBalance items accountId).getD (accountOpening db f scope accountId)

/-- The request for another page of the same report. -/
def GeneralLedgerFilters.atPage (f : GeneralLedgerFilters) (page pageSize : ℕ) (hpage : 1 ≤ page) (hsize : 1 ≤ pageSize) :
    GeneralLedgerFilters :=
  { f with
    page := page
    pageSize := pageSize
    page_pos := hpage
    pageSize_pos := hsize }

section
variable {db : ReportDb} {f : GeneralLedgerFilters} {scope : Scope}

/-! ## Openings -/

theorem ledgerConditions_congr {days days' : Date → Bool} (h : days = days') (x : LedgerLine) :
    ledgerConditions db f days x = ledgerConditions db f days' x := by rw [h]

theorem isOpening_none (h : scope.fromDate = none) : db.postedLedger.filter (ledgerConditions db f scope.isOpening) = [] := by
  refine List.filter_eq_nil_iff.2 fun x _ => ?_
  simp [ledgerConditions, Scope.isOpening, h]

theorem openingOf_map_groups {ids : List ℕ} (g : ℕ → ℚ) (id : ℕ) :
    openingOf (ids.map fun i => (i, g i)) id = if id ∈ ids then g id else 0 := by
  induction ids with
  | nil => rfl
  | cons i ids ih =>
    unfold openingOf at ih ⊢
    by_cases h : i = id
    · simp [h]
    · have h' : ¬id = i := fun he => h he.symm
      simp only [List.map_cons, List.find?_cons, h, decide_false, ih, List.mem_cons, h', false_or]

theorem openingOf_eq (id : ℕ) : openingOf (ledgerOpeningBalances db f scope) id = accountOpening db f scope id := by
  unfold ledgerOpeningBalances accountOpening
  cases h : scope.fromDate with
  | none =>
    rw [isOpening_none h]
    rfl
  | some fromDate =>
    have hdays : scope.isOpening = fun d => decide (d < fromDate) := funext fun d => by simp [Scope.isOpening, h]
    simp only [hdays, openingOf_map_groups, List.mem_dedup, List.mem_map]
    split
    · rfl
    · next hnone => exact (groupSum_eq_zero fun x hx hid => hnone ⟨x, hx, hid⟩).symm

theorem sum_openings :
    ((ledgerOpeningBalances db f scope).map Prod.snd).sum =
      ((db.accounts.rows.map Prod.fst).map (accountOpening db f scope)).sum := by
  have haccounts : ((db.accounts.rows.map Prod.fst).map (accountOpening db f scope)).sum =
      ((db.postedLedger.filter (ledgerConditions db f scope.isOpening)).map LedgerLine.net).sum :=
    sum_groupSum _ _ db.accounts.nodup fun x hx => ReportDb.accountId_mem (List.mem_filter.1 hx).1
  rw [haccounts]
  unfold ledgerOpeningBalances
  cases h : scope.fromDate with
  | none =>
    rw [isOpening_none h]
    rfl
  | some fromDate =>
    have hdays : scope.isOpening = fun d => decide (d < fromDate) := funext fun d => by simp [Scope.isOpening, h]
    simp only [hdays, List.map_map, Function.comp_def]
    exact sum_groupSum _ _ (List.nodup_dedup _) fun x hx => List.mem_dedup.2 (List.mem_map_of_mem hx)

/-! ## Rows -/

theorem joinRow_eq (db : ReportDb) (x : LedgerLine) : ∃ row, db.joinRow x = [row] ∧ row.line = x := by
  have hsingle : (db.financialAccounts.rows.filter fun r => r.2 = x.accountId).length ≤ 1 := by
    have hcount := List.nodup_iff_count_le_one.1 db.single x.accountId
    rw [Table.values, List.count_eq_length_filter, List.filter_map, List.length_map] at hcount
    convert hcount using 3
    funext r
    exact Bool.eq_iff_iff.2 (by simp)
  unfold ReportDb.joinRow ReportDb.financialAccountsOf
  cases h : db.financialAccounts.rows.filter fun r => r.2 = x.accountId with
  | nil => exact ⟨⟨x, _, _, none⟩, rfl, rfl⟩
  | cons r rest =>
    cases rest with
    | nil => exact ⟨⟨x, _, _, some r.1⟩, rfl, rfl⟩
    | cons r' rest => simp [h] at hsingle

theorem postedLedgerRows_map_line (db : ReportDb) : (postedLedgerRows db).map (·.line) = db.postedLedger := by
  unfold postedLedgerRows
  induction db.postedLedger with
  | nil => rfl
  | cons x xs ih =>
    obtain ⟨row, hrow, hline⟩ := joinRow_eq db x
    rw [List.flatMap_cons, hrow, List.map_append, ih, List.map_singleton, hline]
    rfl

/-- The rows of the statement before they are put in order. -/
theorem filteredRows_map_line (db : ReportDb) (p : LedgerLine → Bool) :
    ((postedLedgerRows db).filter fun row => p row.line).map (·.line) = db.postedLedger.filter p := by
  rw [← postedLedgerRows_map_line db, List.filter_map]
  rfl

/-- Two posted lines do not share their place in the ledger. -/
theorem nodup_positions (db : ReportDb) : (db.postedLedger.map LedgerLine.position).Nodup := by
  suffices h : (db.postedLedger.map fun x => (x.journalId, x.line.lineNo)).Nodup by
    refine List.Nodup.of_map (fun p => ofLex (ofLex p).2) ?_
    rw [List.map_map]
    exact h
  unfold ReportDb.postedLedger
  rw [List.map_flatMap, List.nodup_flatMap]
  constructor
  · intro j hj
    by_cases hposted : j.2.status = .posted
    · refine List.Nodup.of_map Prod.snd ?_
      have hlines := db.numbered j.2 (List.mem_map_of_mem hj)
      rw [← ReportDb.linesOf_map_line hj hposted] at hlines
      rw [List.map_map] at hlines ⊢
      exact hlines
    · rw [ReportDb.linesOf, if_neg hposted]
      exact List.nodup_nil
  · refine (List.pairwise_map.1 db.entries.nodup).imp fun hne => ?_
    rintro key hkey hkey'
    obtain ⟨x, hx, rfl⟩ := List.mem_map.1 hkey
    obtain ⟨y, hy, heq⟩ := List.mem_map.1 hkey'
    have hid : y.journalId = x.journalId := congrArg Prod.fst heq
    rw [(ReportDb.mem_linesOf.1 hx).2.1, (ReportDb.mem_linesOf.1 hy).2.1] at hid
    exact hne hid.symm

theorem statement_rows (db : ReportDb) (f : GeneralLedgerFilters) (scope : Scope) :
    (generalLedgerStatement db f scope).map Prod.fst =
      ((postedLedgerRows db).filter fun row => ledgerConditions db f scope.includes row.line).insertionSort
        fun a b => a.position ≤ b.position := by
  simp [generalLedgerStatement, Function.comp_def]

/-- **The statement has every line of the filter once**, in order. -/
theorem statement_lines (db : ReportDb) (f : GeneralLedgerFilters) (scope : Scope) :
    ((generalLedgerStatement db f scope).map fun row => row.1.line).Perm
        (db.postedLedger.filter (ledgerConditions db f scope.includes)) ∧
      ((generalLedgerStatement db f scope).map Prod.fst).Pairwise fun a b => a.position < b.position := by
  have hlines := filteredRows_map_line db (ledgerConditions db f scope.includes)
  have hperm := List.perm_insertionSort (fun a b : LedgerRow => a.position ≤ b.position)
    ((postedLedgerRows db).filter fun row => ledgerConditions db f scope.includes row.line)
  have hsame := statement_rows db f scope
  have hline : (generalLedgerStatement db f scope).map (fun row => row.1.line) =
      ((generalLedgerStatement db f scope).map Prod.fst).map (·.line) := by rw [List.map_map]; rfl
  constructor
  · rw [hline, hsame, ← hlines]
    exact hperm.map _
  · rw [hsame]
    have hsorted := List.pairwise_insertionSort (fun a b : LedgerRow => a.position ≤ b.position)
      ((postedLedgerRows db).filter fun row => ledgerConditions db f scope.includes row.line)
    have hdistinct : ((((postedLedgerRows db).filter fun row => ledgerConditions db f scope.includes row.line).insertionSort
        fun a b => a.position ≤ b.position).map LedgerRow.position).Nodup := by
      refine (hperm.map LedgerRow.position).nodup_iff.2 ?_
      have hpositions : LedgerRow.position = LedgerLine.position ∘ LedgerRow.line := rfl
      rw [hpositions, ← List.map_map, hlines]
      exact (nodup_positions db).sublist (List.filter_sublist.map _)
    exact hsorted.imp₂ (fun a b hle hne => lt_of_le_of_ne hle hne) (List.pairwise_map.1 hdistinct)

/-! ## Balances -/

/-- The row as an item, among rows in order. -/
def itemAmong (db : ReportDb) (f : GeneralLedgerFilters) (scope : Scope) (rows : List LedgerRow) (row : LedgerRow) :
    LedgerItem :=
  ledgerItem (row, runningSum LedgerRow.accountId LedgerRow.position LedgerRow.net rows row)
    (accountOpening db f scope row.accountId)

theorem ledgerItems_statement (db : ReportDb) (f : GeneralLedgerFilters) (scope : Scope) :
    ledgerItems (ledgerOpeningBalances db f scope) (generalLedgerStatement db f scope) =
      ((generalLedgerStatement db f scope).map Prod.fst).map
        (itemAmong db f scope ((generalLedgerStatement db f scope).map Prod.fst)) := by
  have hperm := List.perm_insertionSort (fun a b : LedgerRow => a.position ≤ b.position)
    ((postedLedgerRows db).filter fun row => ledgerConditions db f scope.includes row.line)
  have hrunning := runningSum_perm LedgerRow.accountId LedgerRow.position LedgerRow.net hperm
  rw [statement_rows]
  simp only [ledgerItems, generalLedgerStatement, List.map_map]
  refine List.map_congr_left fun row _ => ?_
  simp only [Function.comp_apply, openingOf_eq, itemAmong, hrunning]

/-- What the last items of an account show, where the rows so far are in order. -/
theorem lastBalance_items (db : ReportDb) (f : GeneralLedgerFilters) (scope : Scope) {before after : List LedgerRow}
    (h : (before ++ after).Pairwise fun a b => a.position < b.position) (id : ℕ) :
    lastBalance db f scope (before.map (itemAmong db f scope (before ++ after))) id =
      groupSum LedgerRow.accountId LedgerRow.net before id + accountOpening db f scope id := by
  have hshown := lastShown_group LedgerRow.accountId
    (fun g running => running + accountOpening db f scope g)
    (runningSum LedgerRow.accountId LedgerRow.position LedgerRow.net (before ++ after)) before id
  have hlast := lastShown_runningSum LedgerRow.accountId LedgerRow.net h id
  have hmap : lastShown LedgerItem.accountId LedgerItem.runningBalance
      (before.map (itemAmong db f scope (before ++ after))) id =
      (lastShown LedgerRow.accountId (runningSum LedgerRow.accountId LedgerRow.position LedgerRow.net (before ++ after))
        before id).map fun running => running + accountOpening db f scope id := by
    rw [lastShown_map]
    exact hshown
  unfold lastBalance
  rw [hmap, ← hlast]
  cases lastShown LedgerRow.accountId (runningSum LedgerRow.accountId LedgerRow.position LedgerRow.net (before ++ after))
    before id <;> simp

/-- A running balance is the one before it in its account plus debit minus credit. -/
theorem runningBalance_step {before after : List LedgerRow} {row : LedgerRow}
    (h : (before ++ row :: after).Pairwise fun a b => a.position < b.position) :
    (itemAmong db f scope (before ++ row :: after) row).runningBalance =
      lastBalance db f scope (before.map (itemAmong db f scope (before ++ row :: after))) row.accountId +
        row.line.debit - row.line.credit := by
  have hsum := runningSum_of_sorted LedgerRow.accountId LedgerRow.net h
  have hnet : row.net = row.line.debit - row.line.credit := rfl
  rw [lastBalance_items db f scope h]
  simp only [itemAmong, ledgerItem, hsum, hnet]
  ring

/-! ## Pages -/

theorem ledgerReport_eq_ok {select : List (LedgerRow × ℚ) → List (LedgerRow × ℚ)} {x : GeneralLedger}
    (h : ledgerReport db f select = .ok x) :
    resolveRange db f.toReportFilters = .ok x.scope ∧
      x.items = ledgerItems (ledgerOpeningBalances db f x.scope) (select (generalLedgerStatement db f x.scope)) ∧
      x.total = (generalLedgerTotals db f x.scope).total ∧
      x.openingBalance = ((ledgerOpeningBalances db f x.scope).map Prod.snd).sum ∧
      x.debit = (generalLedgerTotals db f x.scope).debit ∧ x.credit = (generalLedgerTotals db f x.scope).credit ∧
      x.closingBalance = x.openingBalance + x.debit - x.credit := by
  simp only [ledgerReport, bind_eq_ok, pure_eq_ok] at h
  obtain ⟨scope, hscope, rfl⟩ := h
  exact ⟨hscope, rfl, rfl, rfl, rfl, rfl, rfl⟩

theorem generalLedger_atPage {x : GeneralLedger} (h : exportGeneralLedger db f = .ok x) (page pageSize : ℕ)
    (hpage : 1 ≤ page) (hsize : 1 ≤ pageSize) :
    generalLedger db (f.atPage page pageSize hpage hsize) = .ok { x with items := pageOf page pageSize x.items } := by
  obtain ⟨hscope, hitems, htotal, hopening, hdebit, hcredit, hclosing⟩ := ledgerReport_eq_ok h
  have hrange : resolveRange db (f.atPage page pageSize hpage hsize).toReportFilters = .ok x.scope := hscope
  simp only [generalLedger, ledgerReport, hrange, ok_bind, hitems, pageOf, ledgerItems, List.map_take, List.map_drop, id]
  obtain ⟨items, total, openingBalance, debit, credit, closingBalance, scope⟩ := x
  simp only at hscope hitems htotal hopening hdebit hcredit hclosing
  subst hopening hdebit hcredit hclosing htotal
  rfl

/-- The last balances of all accounts add up to the closing balance. -/
theorem sum_lastBalance {x : GeneralLedger} (h : exportGeneralLedger db f = .ok x) :
    x.openingBalance + x.debit - x.credit =
      ((db.accounts.rows.map Prod.fst).map (lastBalance db f x.scope x.items)).sum := by
  obtain ⟨-, hitems, -, hopening, hdebit, hcredit, -⟩ := ledgerReport_eq_ok h
  obtain ⟨hperm, hsorted⟩ := statement_lines db f x.scope
  set rows := (generalLedgerStatement db f x.scope).map Prod.fst with hrows
  have hall : x.items = rows.map (itemAmong db f x.scope rows) := hitems.trans (ledgerItems_statement db f x.scope)
  have hlast : lastBalance db f x.scope x.items = fun id =>
      groupSum LedgerRow.accountId LedgerRow.net rows id + accountOpening db f x.scope id := by
    funext id
    have hrowsSorted : (rows ++ []).Pairwise fun a b : LedgerRow => a.position < b.position := by rwa [List.append_nil]
    have hbalance := lastBalance_items db f x.scope hrowsSorted id
    rwa [List.append_nil, ← hall] at hbalance
  have hmem : ∀ row ∈ rows, row.accountId ∈ db.accounts.rows.map Prod.fst := by
    intro row hrow
    obtain ⟨p, hp, rfl⟩ := List.mem_map.1 hrow
    exact ReportDb.accountId_mem (List.mem_filter.1 (hperm.subset (List.mem_map_of_mem hp))).1
  have hmovement : (rows.map LedgerRow.net).sum = x.debit - x.credit := by
    have hlines : rows.map LedgerRow.net =
        ((generalLedgerStatement db f x.scope).map fun row => row.1.line).map LedgerLine.net := by
      rw [hrows, List.map_map, List.map_map]
      rfl
    rw [hlines, (hperm.map _).sum_eq, hdebit, hcredit]
    exact (sum_net _).symm
  rw [hlast, List.sum_map_add, sum_groupSum _ _ db.accounts.nodup hmem, hmovement, ← sum_openings, ← hopening]
  ring

end

/-- **The general ledger.** The pages make up the exported stream, which has every posted line of the filter once and in
order; every running balance continues the one before it in its account, the first one the opening balance; and the
closing balance is what the accounts end on. -/
theorem general_ledger_agrees {db : ReportDb} {f : GeneralLedgerFilters} {x : GeneralLedger}
    (h : exportGeneralLedger db f = .ok x) :
    (∀ pages pageSize (hsize : 1 ≤ pageSize), x.total ≤ pages * pageSize → ∃ page : ℕ → GeneralLedger,
      (∀ i, generalLedger db (f.atPage (i + 1) pageSize (Nat.succ_pos i) hsize) = .ok (page i)) ∧
      (List.range pages).flatMap (fun i => (page i).items) = x.items) ∧
    (x.items.map fun i => (i.position, i.accountId, i.debit, i.credit)).Perm
      ((db.postedLedger.filter (ledgerConditions db f x.scope.includes)).map fun l =>
        (l.position, l.accountId, l.debit, l.credit)) ∧
    (x.items.Pairwise fun a b => a.position < b.position) ∧
    (∀ before item after, x.items = before ++ item :: after →
      item.runningBalance = lastBalance db f x.scope before item.accountId + item.debit - item.credit) ∧
    x.openingBalance + x.debit - x.credit =
      ((db.accounts.rows.map Prod.fst).map (lastBalance db f x.scope x.items)).sum := by
  obtain ⟨-, hitems, htotal, -, -, -, -⟩ := ledgerReport_eq_ok h
  obtain ⟨hperm, hsorted⟩ := statement_lines db f x.scope
  set rows := (generalLedgerStatement db f x.scope).map Prod.fst with hrows
  have hall : x.items = rows.map (itemAmong db f x.scope rows) := hitems.trans (ledgerItems_statement db f x.scope)
  refine ⟨fun pages pageSize hsize hpages => ?_, ?_, ?_, ?_, sum_lastBalance h⟩
  · refine ⟨fun i => { x with items := pageOf (i + 1) pageSize x.items }, fun i => generalLedger_atPage h _ _ _ _, ?_⟩
    have hlength : x.items.length = x.total := by
      rw [htotal, hitems, ledgerItems, List.length_map]
      have := hperm.length_eq
      rwa [List.length_map] at this
    exact flatMap_pageOf (by rwa [hlength])
  · have hshown : (x.items.map fun i => (i.position, i.accountId, i.debit, i.credit)) =
        ((generalLedgerStatement db f x.scope).map fun row => row.1.line).map fun l =>
          (l.position, l.accountId, l.debit, l.credit) := by
      rw [hall, hrows, List.map_map, List.map_map, List.map_map]
      rfl
    rw [hshown]
    exact hperm.map _
  · rw [hall, List.pairwise_map]
    exact hsorted
  · intro before item after hsplit
    rw [hall] at hsplit
    obtain ⟨pre, rest, hparts, hpre, hrest⟩ := List.map_eq_append_iff.1 hsplit
    obtain ⟨row, post, rfl, rfl, -⟩ := List.map_eq_cons_iff.1 hrest
    rw [hparts] at hsorted hpre ⊢
    rw [← hpre]
    exact runningBalance_step hsorted

theorem general_ledger_agrees_sale :
    ∃ x, exportGeneralLedger saleDb { fromDate := some saleDay } = .ok x ∧
      x.openingBalance + x.debit - x.credit =
        ((saleDb.accounts.rows.map Prod.fst).map (lastBalance saleDb { fromDate := some saleDay } x.scope x.items)).sum := by
  have hok : (exportGeneralLedger saleDb { fromDate := some saleDay }).isOk = true := by decide +kernel
  obtain ⟨x, h⟩ := isOk_eq_true.1 hok
  exact ⟨x, h, (general_ledger_agrees h).2.2.2.2⟩

end LcsSystem
