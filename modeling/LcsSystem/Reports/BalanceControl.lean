import LcsSystem.Reports.TrialBalance

/-!
# When the trial balance ties

Over a ledger whose journals balance, the report without an account range always ties, and the closing position of a
range is the opening position of the next one. With an account range it claims an unbalanced ledger as soon as the
accounts of the range do not balance among themselves.
-/

namespace LcsSystem
open Calendar Relational Checks Grouping

/-- Every posted journal balances in base currency. -/
def ReportDb.EntriesBalance (db : ReportDb) : Prop :=
  ∀ e ∈ db.entries.values, e.status = .posted →
    (e.lines.map fun l => l.baseDebitAmount.val).sum = (e.lines.map fun l => l.baseCreditAmount.val).sum

instance (db : ReportDb) : Decidable db.EntriesBalance := inferInstanceAs (Decidable (∀ _ ∈ _, _))

/-- The report lists the accounts of the range, those with a posted line up to its last day. -/
def ReportsRange (db : ReportDb) (f : TrialBalanceFilters) (r : TrialBalance) : Prop :=
  (r.items.map (·.accountId)).Nodup ∧ ∀ id, id ∈ r.items.map (·.accountId) ↔
    ∃ account, db.accounts.get? id = some account ∧ f.inRange account.accountCode = true ∧
      ∃ x ∈ db.postedLedger, x.accountId = id ∧ r.scope.isClosed x.postingDate = true

/-- The movement of an account up to day `d` that a later range ends too early to read. -/
def movementAfter (db : ReportDb) (scope : Scope) (d : Date) (id : ℕ) : ℚ :=
  groupSum LedgerLine.accountId LedgerLine.net
    (db.postedLedger.filter fun x => x.postingDate ≤ d && !scope.isClosed x.postingDate) id

/-- No bound on the account codes. -/
def TrialBalanceFilters.Unbounded (f : TrialBalanceFilters) : Prop :=
  f.accountFrom.getD "" = "" ∧ f.accountTo.getD "" = ""

/-- The accounts in both account ranges. -/
def InBoth (db : ReportDb) (f g : TrialBalanceFilters) (id : ℕ) : Prop :=
  ∃ account, db.accounts.get? id = some account ∧ f.inRange account.accountCode = true ∧
    g.inRange account.accountCode = true

/-- Where `r'` starts on the day after the last one of `r`, it opens with the positions that `r` closes with. -/
def PositionsContinue (db : ReportDb) (f g : TrialBalanceFilters) (r r' : TrialBalance) : Prop :=
  ∀ d d', r.scope.toDate = some d → r'.scope.fromDate = some d' → d ⋖ d' →
    ∀ id, InBoth db f g id → r.closingPosition id = r'.openingPosition id

/-- The later range leaves out no movement up to the day before it. -/
def NothingLeftOut (db : ReportDb) (f g : TrialBalanceFilters) (r r' : TrialBalance) : Prop :=
  ∀ d d', r.scope.toDate = some d → r'.scope.fromDate = some d' → d ⋖ d' →
    ∀ id, InBoth db f g id → movementAfter db r'.scope d id = 0

section
variable {db : ReportDb} {f g : TrialBalanceFilters} {r r' : TrialBalance}

/-! ## Journals -/

theorem sum_net_linesOf (hbalance : db.EntriesBalance) {j : ℕ × JournalEntry} (hj : j ∈ db.entries.rows) :
    ((db.linesOf j).map LedgerLine.net).sum = 0 := by
  by_cases hposted : j.2.status = .posted
  · have hlines := ReportDb.linesOf_map_line hj hposted
    have hsums := hbalance j.2 (List.mem_map_of_mem hj) hposted
    rw [← hlines, List.map_map, List.map_map] at hsums
    rw [← sum_net]
    exact sub_eq_zero.2 hsums
  · rw [ReportDb.linesOf, if_neg hposted]
    rfl

/-- The journals of some days balance together: a date takes a whole journal or nothing of it. -/
theorem sum_net_of_dates (hbalance : db.EntriesBalance) (days : Date → Bool) :
    ((db.postedLedger.filter fun x => days x.postingDate).map LedgerLine.net).sum = 0 := by
  suffices h : ∀ rows : List (ℕ × JournalEntry), (∀ j ∈ rows, j ∈ db.entries.rows) →
      (((rows.flatMap db.linesOf).filter fun x => days x.postingDate).map LedgerLine.net).sum = 0 from
    h _ fun j hj => hj
  intro rows hrows
  induction rows with
  | nil => rfl
  | cons j rows ih =>
    rw [List.flatMap_cons, List.filter_append, List.map_append, List.sum_append,
      ih fun k hk => hrows k (List.mem_cons_of_mem _ hk), add_zero]
    have hdate : ∀ x ∈ db.linesOf j, x.postingDate = j.2.postingDate := fun x hx => by
      rw [LedgerLine.postingDate, (ReportDb.mem_linesOf.1 hx).2.2.1]
    cases hday : days j.2.postingDate with
    | true =>
      have hall : (db.linesOf j).filter (fun x => days x.postingDate) = db.linesOf j :=
        List.filter_eq_self.2 fun x hx => by rw [hdate x hx, hday]
      rw [hall]
      exact sum_net_linesOf hbalance (hrows j List.mem_cons_self)
    | false =>
      have hnone : (db.linesOf j).filter (fun x => days x.postingDate) = [] :=
        List.filter_eq_nil_iff.2 fun x hx => by rw [hdate x hx, hday]; simp
      rw [hnone]
      rfl

theorem inRange_of_unbounded (h : f.Unbounded) (code : String) : f.inRange code = true := by
  obtain ⟨hfrom, hto⟩ := h
  cases hf : f.accountFrom <;> cases ht : f.accountTo <;> simp_all [TrialBalanceFilters.inRange]

theorem trialBalanceLines_of_noRange (hrange : ∀ code, f.inRange code = true) (scope : Scope) :
    trialBalanceLines db f scope = db.postedLedger.filter fun x => scope.isClosed x.postingDate := by
  simp [trialBalanceLines, hrange]

theorem rangeBalances_of_noRange (hbalance : db.EntriesBalance) (hunbounded : f.Unbounded) (scope : Scope) :
    RangeBalances db f scope := by
  have hrange := inRange_of_unbounded hunbounded
  constructor
  · rw [trialBalanceLines_of_noRange hrange, List.filter_filter]
    exact sum_net_of_dates hbalance fun d => scope.isOpening d && scope.isClosed d
  · rw [trialBalanceLines_of_noRange hrange, List.filter_filter]
    exact sum_net_of_dates hbalance fun d => !scope.isOpening d && scope.isClosed d

/-! ## Accounts and positions -/

theorem reportsRange (h : trialBalanceRows db f = .ok r) : ReportsRange db f r := by
  have hitems := (trialBalanceRows_eq_ok h).1
  have hids : r.items.map (·.accountId) = (reportedAccounts db (trialBalanceLines db f r.scope)).map Prod.fst := by
    rw [hitems, List.map_map]
    rfl
  refine ⟨hids ▸ nodup_reportedAccounts db _, fun id => ?_⟩
  rw [hids, List.mem_map]
  constructor
  · rintro ⟨⟨i, account⟩, hmem, rfl⟩
    obtain ⟨haccount, x, hx, hid⟩ := mem_reportedAccounts.1 hmem
    obtain ⟨hposted, hclosed, hcode⟩ := mem_trialBalanceLines.1 hx
    have hsame := ReportDb.account_of_id hposted hid haccount
    exact ⟨account, haccount, by rwa [hsame] at hcode, x, hposted, hid, hclosed⟩
  · rintro ⟨account, haccount, hcode, x, hposted, hid, hclosed⟩
    have hsame := ReportDb.account_of_id hposted hid haccount
    exact ⟨(id, account), mem_reportedAccounts.2
      ⟨haccount, x, mem_trialBalanceLines.2 ⟨hposted, hclosed, hsame ▸ hcode⟩, hid⟩, rfl⟩

/-- The account range drops nothing of an account in it. -/
theorem groupSum_trialBalanceLines {id : ℕ} {account : LedgerAccount} (haccount : db.accounts.get? id = some account)
    (hcode : f.inRange account.accountCode = true) (days : Date → Bool) (scope : Scope) :
    groupSum LedgerLine.accountId LedgerLine.net
      ((trialBalanceLines db f scope).filter fun x => days x.postingDate) id =
    groupSum LedgerLine.accountId LedgerLine.net
      (db.postedLedger.filter fun x => days x.postingDate && scope.isClosed x.postingDate) id := by
  unfold groupSum trialBalanceLines
  simp only [List.filter_filter]
  congr 2
  refine List.filter_congr fun x hx => ?_
  by_cases hid : x.accountId = id
  · have hsame := ReportDb.account_of_id hx hid haccount
    simp [hid, hsame, hcode]
  · simp [hid]

theorem positions_next (h : trialBalanceRows db f = .ok r) (h' : trialBalanceRows db g = .ok r') {d d' : Date}
    (hlast : r.scope.toDate = some d) (hfirst : r'.scope.fromDate = some d') (hnext : d ⋖ d') {id : ℕ}
    {account : LedgerAccount} (haccount : db.accounts.get? id = some account)
    (hf : f.inRange account.accountCode = true) (hg : g.inRange account.accountCode = true) :
    r.closingPosition id = r'.openingPosition id ↔ movementAfter db r'.scope d id = 0 := by
  have hclosed : ∀ x, r.scope.isClosed x = decide (x ≤ d) := fun x => by simp [Scope.isClosed, hlast]
  have hopening : ∀ x, r'.scope.isOpening x = decide (x ≤ d) := fun x => by
    have hiff : x < d' ↔ x ≤ d := ⟨hnext.le_of_lt, fun hle => hle.trans_lt hnext.1⟩
    simp [Scope.isOpening, hfirst, hiff]
  have hall := groupSum_trialBalanceLines (f := f) haccount hf (fun _ => true) r.scope
  have hread := groupSum_trialBalanceLines (f := g) haccount hg r'.scope.isOpening r'.scope
  have hsplit := groupSum_split (fun x => r'.scope.isClosed x.postingDate) LedgerLine.net
    (db.postedLedger.filter fun x => x.postingDate ≤ d) id
  simp only [List.filter_true, Bool.true_and, hclosed] at hall
  simp only [hopening] at hread
  simp only [List.filter_filter] at hsplit
  rw [(positions_eq h id).2, (positions_eq h' id).1, side_inj, hall, ← hsplit, openingSum]
  simp only [hopening, hread, movementAfter]
  simp only [Bool.and_comm]
  exact add_eq_left

theorem positionsContinue_iff (h : trialBalanceRows db f = .ok r) (h' : trialBalanceRows db g = .ok r') :
    PositionsContinue db f g r r' ↔ NothingLeftOut db f g r r' := by
  constructor
  · intro hcontinue d d' hlast hfirst hnext id hid
    obtain ⟨account, haccount, hf, hg⟩ := hid
    exact (positions_next h h' hlast hfirst hnext haccount hf hg).1
      (hcontinue d d' hlast hfirst hnext id ⟨account, haccount, hf, hg⟩)
  · intro hnothing d d' hlast hfirst hnext id hid
    obtain ⟨account, haccount, hf, hg⟩ := hid
    exact (positions_next h h' hlast hfirst hnext haccount hf hg).2
      (hnothing d d' hlast hfirst hnext id ⟨account, haccount, hf, hg⟩)

/-- A range that does not end before it starts leaves nothing out. -/
theorem nothingLeftOut_of_le (h : ∀ d ∈ r.scope.toDate, ∀ last ∈ r'.scope.toDate, d ≤ last) :
    NothingLeftOut db f g r r' := by
  intro d d' hlast _ _ id _
  refine groupSum_eq_zero fun x hx => absurd (List.mem_filter.1 hx).2 ?_
  cases hto : r'.scope.toDate with
  | none => simp [Scope.isClosed, hto]
  | some last =>
    have hle := h d hlast last hto
    simp only [Scope.isClosed, hto, Option.all_some, Bool.and_eq_true, decide_eq_true_eq, Bool.not_eq_true',
      decide_eq_false_iff_not, not_and, not_not]
    exact fun hx => hx.trans hle

end

/-- **The trial balance ties** if and only if the accounts of its range balance among themselves, as they do without an
account range, and it continues the positions of the range before unless it ends before it starts. -/
theorem trial_balance_ties_iff {db : ReportDb} (hbalance : db.EntriesBalance) {f g : TrialBalanceFilters}
    {r r' : TrialBalance} (h : trialBalanceRows db f = .ok r) (h' : trialBalanceRows db g = .ok r') :
    ((ReportsRange db f r ∧ r.Ties ∧ PositionsContinue db f g r r') ↔
      (RangeBalances db f r.scope ∧ NothingLeftOut db f g r r')) ∧
    (f.Unbounded → RangeBalances db f r.scope) ∧
    ((∀ d ∈ r.scope.toDate, ∀ last ∈ r'.scope.toDate, d ≤ last) → NothingLeftOut db f g r r') := by
  refine ⟨⟨?_, ?_⟩, fun hunbounded => rangeBalances_of_noRange hbalance hunbounded _, nothingLeftOut_of_le⟩
  · rintro ⟨-, hties, hcontinue⟩
    exact ⟨(ties_iff_rangeBalances h).1 hties, (positionsContinue_iff h h').1 hcontinue⟩
  · rintro ⟨hrange, hnothing⟩
    exact ⟨reportsRange h, (ties_iff_rangeBalances h).2 hrange, (positionsContinue_iff h h').2 hnothing⟩

theorem trial_balance_ties_sale :
    ∃ r r', trialBalanceRows saleDb { toDate := some lastDay } = .ok r ∧
      trialBalanceRows saleDb { fromDate := some nextDay } = .ok r' ∧ r.Ties ∧
      PositionsContinue saleDb { toDate := some lastDay } { fromDate := some nextDay } r r' := by
  have hbalance : saleDb.EntriesBalance := by decide +kernel
  have hscope : (trialBalanceRows saleDb { fromDate := some nextDay }).toOption.map (·.scope) =
      some ⟨some nextDay, none⟩ := by decide +kernel
  have hfirst : (trialBalanceRows saleDb { toDate := some lastDay }).isOk = true := by decide +kernel
  have hsecond : (trialBalanceRows saleDb { fromDate := some nextDay }).isOk = true := by decide +kernel
  obtain ⟨r, h⟩ := isOk_eq_true.1 hfirst
  obtain ⟨r', h'⟩ := isOk_eq_true.1 hsecond
  obtain ⟨hiff, hrange, hnothing⟩ := trial_balance_ties_iff hbalance h h'
  have hopen : ∀ d ∈ r.scope.toDate, ∀ last ∈ r'.scope.toDate, d ≤ last := by
    rw [h'] at hscope
    have hsame : r'.scope = ⟨some nextDay, none⟩ := Option.some.inj hscope
    rw [hsame]
    exact fun _ _ _ hlast => by cases hlast
  obtain ⟨-, hties, hcontinue⟩ := hiff.2 ⟨hrange ⟨rfl, rfl⟩, hnothing hopen⟩
  exact ⟨r, r', h, h', hties, hcontinue⟩

/-- The receivables alone are reported as a ledger that does not balance. -/
theorem account_range_claims_imbalance :
    saleDb.EntriesBalance ∧
    ((trialBalanceRows saleDb { accountFrom := some "1000", accountTo := some "1999" }).toOption.map fun r =>
      (r.items.map (·.account.accountCode), r.balanced, r.imbalance, r.warnings.length)) =
      some (["1100"], false, 100, 1) := by
  decide +kernel

end LcsSystem
