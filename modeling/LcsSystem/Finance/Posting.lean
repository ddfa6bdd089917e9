import LcsSystem.Finance.PostingRules

/-!
# Generation of journals from documents

`src/backend/app/modules/finance/posting.py`: each document type is a strategy (which side the
control account is on, whether the detail is per line, whether tax is split out), and `build` turns
a document total and its lines into a journal draft.

A line is posted in two parts, `taxPart` to the tax account and `restPart` to its own account; a
part that is not positive is not posted. `journalSides` are the amounts of both sides in terms of
these parts, and every result about postings goes through `build_spec`.
-/

namespace LcsSystem
open DecimalArith Checks

/-! ## Strategies -/

inductive JournalSide
  | controlDebit
  | controlCredit
  deriving DecidableEq, Repr

structure PostingStrategy where
  side : JournalSide
  detailed : Bool
  splitsTax : Bool

/-- `STRATEGIES`. -/
def strategyFor : DocType → PostingStrategy
  | .customerInvoice => ⟨.controlDebit, true, true⟩
  | .creditNote => ⟨.controlCredit, true, true⟩
  | .supplierBill => ⟨.controlCredit, true, true⟩
  | .supplierCreditNote => ⟨.controlDebit, true, true⟩
  | .customerReceipt => ⟨.controlCredit, false, false⟩
  | .supplierPayment => ⟨.controlCredit, false, false⟩
  | .otherIncome => ⟨.controlDebit, false, false⟩
  | .otherExpense => ⟨.controlCredit, false, false⟩
  | .transfer => ⟨.controlDebit, false, false⟩
  | .adjustment => ⟨.controlCredit, false, false⟩

/-- `line_detail_is_credit`. -/
def lineDetailIsCredit (documentType : DocType) : Bool := (strategyFor documentType).side == .controlDebit

/-! ## Drafts -/

structure DocumentLineInput where
  description : String
  amount : ℚ
  tax : ℚ
  feeTypeId : Option ℕ
  accountId : Option ℕ

structure DraftLine where
  account : Account
  amount : ℚ
  debit : Bool
  description : String
  deriving DecidableEq

structure JournalDraft where
  ruleId : Option ℕ
  lines : List DraftLine
  deriving DecidableEq

/-- The amounts of one side. -/
def sideAmounts (debit : Bool) (lines : List DraftLine) : List ℚ :=
  (lines.filter fun l => l.debit == debit).map DraftLine.amount

namespace JournalDraft

def debitTotal (draft : JournalDraft) : ℚ := (sideAmounts true draft.lines).sum
def creditTotal (draft : JournalDraft) : ℚ := (sideAmounts false draft.lines).sum

end JournalDraft

/-- What `JournalDraft.add` appends: nothing when the amount is not positive. -/
def draftLine (account : Account) (amount : ℚ) (debit : Bool) (description : String) : List DraftLine :=
  if amount ≤ 0 then [] else [⟨account, amount, debit, description⟩]

/-- A sum of column amounts as `Decimal` prints it: an empty sum is the literal it starts from. -/
def sumText (amounts : List ℚ) : String := if amounts = [] then "0" else moneyText amounts.sum

def JournalDraft.assertBalanced (draft : JournalDraft) : Result PUnit :=
  check (draft.debitTotal = draft.creditTotal) (.conflict "JOURNAL_UNBALANCED"
    "The generated journal is not balanced."
    [("total", "Debits " ++ sumText (sideAmounts true draft.lines) ++ " do not equal credits " ++
      sumText (sideAmounts false draft.lines) ++ ".")])

/-! ## Building -/

/-- `_detail_account`: the account chosen on the line, else the rule for its fee type. -/
def detailAccount (db : Db) (documentType : DocType) (line : DocumentLineInput) : Result Account :=
  match line.accountId with
  | some id => require (accountById db id) (.invalid
      "A document line references an account that no longer exists."
      [("lines", "Remove the line or pick another account.")])
  | none => do
    let resolved ← resolve db documentType line.feeTypeId "line" "line"
    return if lineDetailIsCredit documentType then resolved.credit else resolved.debit

/-- The part of a line that goes to the tax account. -/
def DocumentLineInput.taxPart (splits : Bool) (line : DocumentLineInput) : ℚ :=
  if splits then min line.tax line.amount else 0

/-- The part of a line that goes to its own account. -/
def DocumentLineInput.restPart (splits : Bool) (line : DocumentLineInput) : ℚ := line.amount - line.taxPart splits

/-- `line.description or description`. -/
def DocumentLineInput.label (line : DocumentLineInput) (description : String) : String :=
  if line.description = "" then description else line.description

/-- The line of the tax account, when the rule has one. -/
def taxLines (tax : Option Account) (debit : Bool) (description : String) (line : DocumentLineInput) :
    List DraftLine :=
  match tax with
  | some account => draftLine account (line.taxPart true) debit ("Tax: " ++ line.label description)
  | none => []

/-- The draft lines of one document line, and whether its own account was reached. -/
def detailOf (db : Db) (documentType : DocType) (tax : Option Account) (description : String)
    (line : DocumentLineInput) : Result (List DraftLine × Bool) :=
  let debit := !lineDetailIsCredit documentType
  if line.restPart tax.isSome ≤ 0 then .ok (taxLines tax debit description line, false)
  else do
    let account ← detailAccount db documentType line
    return (taxLines tax debit description line ++
      draftLine account (line.restPart tax.isSome) debit (line.label description), true)

/-- The loop of `_add_detailed` over the document lines. -/
def detailLines (db : Db) (documentType : DocType) (tax : Option Account) (description : String) :
    List DocumentLineInput → Result (List DraftLine × Bool)
  | [] => .ok ([], false)
  | line :: lines => do
    let (drafts, resolved) ← detailOf db documentType tax description line
    let (rest, resolvedAny) ← detailLines db documentType tax description lines
    return (drafts ++ rest, resolved || resolvedAny)

/-- `_add_detailed`: the control side takes the total, the lines resolve their own accounts. When no
line does, the rule's credit account takes the total once more. -/
def addDetailed (db : Db) (documentType : DocType) (total : ℚ) (control : PostingRuleAccounts)
    (description : String) (lines : List DocumentLineInput) : Result (List DraftLine) := do
  let plan := strategyFor documentType
  let detailIsCredit := lineDetailIsCredit documentType
  let controlLines :=
    draftLine (if detailIsCredit then control.debit else control.credit) total detailIsCredit description
  let (drafts, resolvedAny) ←
    detailLines db documentType (if plan.splitsTax then control.tax else none) description lines
  return controlLines ++ drafts ++
    if resolvedAny then [] else draftLine control.credit total false description

/-- `_add_two_sided`. -/
def twoSided (control : PostingRuleAccounts) (total : ℚ) (description : String) : List DraftLine :=
  draftLine control.debit total true description ++ draftLine control.credit total false description

/-- The strategy of the type, applied. -/
def draftLines (db : Db) (documentType : DocType) (total : ℚ) (control : PostingRuleAccounts)
    (description : String) (lines : List DocumentLineInput) : Result (List DraftLine) :=
  if (strategyFor documentType).detailed && !lines.isEmpty then
    addDetailed db documentType total control description lines
  else .ok (twoSided control total description)

/-- `AccountingPostingService.build`. -/
def build (db : Db) (documentType : DocType) (total : ℚ) (description : String) (lines : List DocumentLineInput) :
    Result JournalDraft := do
  check (0 < total) (.invalid "Document total must be greater than zero before posting."
    [("total", "Enter a total greater than zero.")])
  let control ← resolve db documentType none "debit" "credit"
  let drafts ← draftLines db documentType total control description lines
  let draft : JournalDraft := ⟨control.ruleId, drafts⟩
  draft.assertBalanced
  return draft

/-! ## The two sides of a draft -/

@[simp] theorem sideAmounts_append (debit : Bool) (l m : List DraftLine) :
    sideAmounts debit (l ++ m) = sideAmounts debit l ++ sideAmounts debit m := by
  simp [sideAmounts]

@[simp] theorem sideAmounts_nil (debit : Bool) : sideAmounts debit [] = [] := rfl

/-- The amount of a line, unless it is not positive. -/
def positivePart (amount : ℚ) : List ℚ := if amount ≤ 0 then [] else [amount]

theorem sum_positivePart {amount : ℚ} (h : 0 ≤ amount) : (positivePart amount).sum = amount := by
  unfold positivePart
  split
  · next hle => simpa using le_antisymm h hle
  · simp

theorem sideAmounts_draftLine (account : Account) (amount : ℚ) (side debit : Bool) (description : String) :
    sideAmounts side (draftLine account amount debit description) =
      if debit = side then positivePart amount else [] := by
  unfold draftLine positivePart sideAmounts
  by_cases ha : amount ≤ 0 <;> by_cases hs : debit = side <;> simp [ha, hs]

theorem length_eq_sides (lines : List DraftLine) :
    lines.length = (sideAmounts true lines).length + (sideAmounts false lines).length := by
  induction lines with
  | nil => rfl
  | cons l ls ih =>
    simp only [sideAmounts, List.length_map, List.filter_cons] at ih ⊢
    cases l.debit <;> simp [ih] <;> omega

/-- The amounts a document line is posted with. -/
def DocumentLineInput.parts (splits : Bool) (line : DocumentLineInput) : List ℚ :=
  positivePart (line.taxPart splits) ++ positivePart (line.restPart splits)

def postedParts (splits : Bool) (lines : List DocumentLineInput) : List ℚ :=
  (lines.map (DocumentLineInput.parts splits)).flatten

/-- Some line has something left for its own account. -/
def ReachesDetail (splits : Bool) (lines : List DocumentLineInput) : Prop :=
  ∃ line ∈ lines, 0 < line.restPart splits

instance (splits : Bool) (lines : List DocumentLineInput) : Decidable (ReachesDetail splits lines) :=
  inferInstanceAs (Decidable (∃ line ∈ lines, _))

/-- Debit and credit amounts of a journal, from the document alone. -/
def journalSides (documentType : DocType) (splits : Bool) (total : ℚ) (lines : List DocumentLineInput) :
    List ℚ × List ℚ :=
  if (strategyFor documentType).detailed && !lines.isEmpty then
    let parts := postedParts splits lines
    let fallback := if ReachesDetail splits lines then [] else [total]
    if lineDetailIsCredit documentType then ([total], parts ++ fallback) else (parts, total :: fallback)
  else ([total], [total])

theorem sideAmounts_taxLines (tax : Option Account) (side debit : Bool) (description : String)
    (line : DocumentLineInput) :
    sideAmounts side (taxLines tax debit description line) =
      if debit = side then positivePart (line.taxPart tax.isSome) else [] := by
  cases tax with
  | none => simp [taxLines, DocumentLineInput.taxPart, positivePart]
  | some account => exact sideAmounts_draftLine ..

theorem detailOf_spec {db : Db} {documentType : DocType} {tax : Option Account} {description : String}
    {line : DocumentLineInput} {drafts : List DraftLine} {resolved : Bool}
    (h : detailOf db documentType tax description line = .ok (drafts, resolved)) :
    sideAmounts (!lineDetailIsCredit documentType) drafts = line.parts tax.isSome ∧
      sideAmounts (lineDetailIsCredit documentType) drafts = [] ∧
      (resolved = true ↔ 0 < line.restPart tax.isSome) := by
  by_cases hrest : line.restPart tax.isSome ≤ 0
  · simp only [detailOf, hrest, if_true] at h
    cases h
    refine ⟨?_, ?_, by simp [hrest]⟩
    · simp [sideAmounts_taxLines, DocumentLineInput.parts, positivePart, hrest]
    · simp [sideAmounts_taxLines]
  · simp only [detailOf, hrest, if_false, bind_eq_ok, pure_eq_ok] at h
    obtain ⟨account, -, h⟩ := h
    cases h
    refine ⟨?_, ?_, by simpa using hrest⟩
    · simp [sideAmounts_taxLines, sideAmounts_draftLine, DocumentLineInput.parts]
    · simp [sideAmounts_taxLines, sideAmounts_draftLine]

theorem detailLines_spec {db : Db} {documentType : DocType} {tax : Option Account} {description : String}
    {lines : List DocumentLineInput} {drafts : List DraftLine} {resolvedAny : Bool}
    (h : detailLines db documentType tax description lines = .ok (drafts, resolvedAny)) :
    sideAmounts (!lineDetailIsCredit documentType) drafts = postedParts tax.isSome lines ∧
      sideAmounts (lineDetailIsCredit documentType) drafts = [] ∧
      (resolvedAny = true ↔ ReachesDetail tax.isSome lines) := by
  induction lines generalizing drafts resolvedAny with
  | nil =>
    cases h
    simp [postedParts, ReachesDetail]
  | cons line lines ih =>
    simp only [detailLines, bind_eq_ok, pure_eq_ok] at h
    obtain ⟨⟨first, resolved⟩, hfirst, ⟨rest, any⟩, hrest, h⟩ := h
    cases h
    obtain ⟨h1, h2, h3⟩ := detailOf_spec hfirst
    obtain ⟨i1, i2, i3⟩ := ih hrest
    refine ⟨?_, ?_, ?_⟩
    · rw [sideAmounts_append, h1, i1]
      simp [postedParts]
    · rw [sideAmounts_append, h2, i2, List.append_nil]
    · simp [ReachesDetail, Bool.or_eq_true, h3, i3]

/-- The loop fails only where a line that is posted to its own account resolves none. -/
theorem detailLines_isOk {db : Db} {documentType : DocType} {tax : Option Account} (description : String)
    {lines : List DocumentLineInput}
    (h : ∀ line ∈ lines, 0 < line.restPart tax.isSome → ∃ a, detailAccount db documentType line = .ok a) :
    ∃ r, detailLines db documentType tax description lines = .ok r := by
  induction lines with
  | nil => exact ⟨_, rfl⟩
  | cons line lines ih =>
    obtain ⟨rest, hrest⟩ := ih fun l hl => h l (List.mem_cons_of_mem _ hl)
    have hfirst : ∃ r, detailOf db documentType tax description line = .ok r := by
      by_cases hpos : line.restPart tax.isSome ≤ 0
      · simp [detailOf, hpos]
      · obtain ⟨a, ha⟩ := h line List.mem_cons_self (not_le.1 hpos)
        simp [detailOf, hpos, ha, pure, Except.pure]
    obtain ⟨first, hfirst⟩ := hfirst
    exact ⟨_, by simp only [detailLines, hfirst, hrest, ok_bind]; rfl⟩

/-- Whether tax is split out: the strategy says so and the rule has a tax account. -/
def splitsTax (documentType : DocType) (control : PostingRuleAccounts) : Bool :=
  (strategyFor documentType).splitsTax && control.tax.isSome

theorem isSome_taxAccount (documentType : DocType) (control : PostingRuleAccounts) :
    (if (strategyFor documentType).splitsTax then control.tax else none).isSome =
      splitsTax documentType control := by
  unfold splitsTax
  cases (strategyFor documentType).splitsTax <;> simp

/-- The draft lines carry exactly the amounts of `journalSides`. -/
theorem draftLines_sides {db : Db} {documentType : DocType} {total : ℚ} {control : PostingRuleAccounts}
    {description : String} {lines : List DocumentLineInput} {drafts : List DraftLine} (htotal : 0 < total)
    (h : draftLines db documentType total control description lines = .ok drafts) :
    sideAmounts true drafts = (journalSides documentType (splitsTax documentType control) total lines).1 ∧
      sideAmounts false drafts = (journalSides documentType (splitsTax documentType control) total lines).2 := by
  have hpos : positivePart total = [total] := if_neg (not_le.2 htotal)
  by_cases hdetailed : ((strategyFor documentType).detailed && !lines.isEmpty) = true
  · simp only [draftLines, hdetailed, if_true, addDetailed, bind_eq_ok, pure_eq_ok] at h
    obtain ⟨⟨ds, any⟩, hds, rfl⟩ := h
    obtain ⟨h1, h2, h3⟩ := detailLines_spec hds
    rw [isSome_taxAccount] at h1 h3
    simp only [journalSides, hdetailed, if_true]
    by_cases hany : ReachesDetail (splitsTax documentType control) lines
    · have hresolved : any = true := h3.2 hany
      cases hc : lineDetailIsCredit documentType <;>
        simp_all [sideAmounts_draftLine]
    · have hresolved : any = false := by simpa using mt h3.1 hany
      cases hc : lineDetailIsCredit documentType <;>
        simp_all [sideAmounts_draftLine]
  · simp only [draftLines, hdetailed, Bool.false_eq_true, if_false, Except.ok.injEq] at h
    subst h
    simp [journalSides, hdetailed, twoSided, sideAmounts_draftLine, hpos]

/-- **A built draft**: it balances, and its sides are those of `journalSides`. -/
theorem build_spec {db : Db} {documentType : DocType} {total : ℚ} {description : String}
    {lines : List DocumentLineInput} {draft : JournalDraft}
    (h : build db documentType total description lines = .ok draft) :
    0 < total ∧ ∃ control, resolve db documentType none "debit" "credit" = .ok control ∧
      draft.ruleId = control.ruleId ∧ draft.debitTotal = draft.creditTotal ∧
      sideAmounts true draft.lines = (journalSides documentType (splitsTax documentType control) total lines).1 ∧
      sideAmounts false draft.lines = (journalSides documentType (splitsTax documentType control) total lines).2 := by
  simp only [build, JournalDraft.assertBalanced, bind_eq_ok, check_eq_ok, pure_eq_ok] at h
  obtain ⟨_, htotal, control, hcontrol, drafts, hdrafts, _, hbalanced, rfl⟩ := h
  obtain ⟨h1, h2⟩ := draftLines_sides htotal hdrafts
  exact ⟨htotal, control, hcontrol, rfl, hbalanced, h1, h2⟩

/-- With every account resolved, `build` succeeds exactly when the two sides have one sum. -/
theorem build_isOk_iff {db : Db} {documentType : DocType} {total : ℚ} (description : String)
    {lines : List DocumentLineInput} {control : PostingRuleAccounts} (htotal : 0 < total)
    (hcontrol : resolve db documentType none "debit" "credit" = .ok control)
    (hlines : ∀ line ∈ lines, 0 < line.restPart (splitsTax documentType control) →
      ∃ a, detailAccount db documentType line = .ok a) :
    (∃ draft, build db documentType total description lines = .ok draft) ↔
      (journalSides documentType (splitsTax documentType control) total lines).1.sum =
        (journalSides documentType (splitsTax documentType control) total lines).2.sum := by
  constructor
  · rintro ⟨draft, h⟩
    obtain ⟨-, control', hcontrol', -, hbalanced, h1, h2⟩ := build_spec h
    rw [hcontrol] at hcontrol'
    cases hcontrol'
    rw [← h1, ← h2]
    exact hbalanced
  · intro hsum
    have hdrafts : ∃ drafts, draftLines db documentType total control description lines = .ok drafts := by
      by_cases hdetailed : ((strategyFor documentType).detailed && !lines.isEmpty) = true
      · rw [← isSome_taxAccount] at hlines
        obtain ⟨⟨ds, any⟩, hds⟩ := detailLines_isOk description hlines
        exact ⟨_, by simp only [draftLines, hdetailed, if_true, addDetailed, hds, ok_bind]; rfl⟩
      · exact ⟨_, by simp only [draftLines, hdetailed]; rfl⟩
    obtain ⟨drafts, hdrafts⟩ := hdrafts
    obtain ⟨h1, h2⟩ := draftLines_sides htotal hdrafts
    have hbalanced : JournalDraft.debitTotal ⟨control.ruleId, drafts⟩ = JournalDraft.creditTotal ⟨control.ruleId, drafts⟩ := by
      simpa only [JournalDraft.debitTotal, JournalDraft.creditTotal, h1, h2] using hsum
    exact ⟨⟨control.ruleId, drafts⟩, by
      simp [build, JournalDraft.assertBalanced, check_pos htotal, hcontrol, hdrafts, check_pos hbalanced,
        pure, Except.pure]⟩

/-- A positive balanced journal has a line on each side. -/
theorem two_le_length_of_balanced {lines : List DraftLine}
    (h : (sideAmounts true lines).sum = (sideAmounts false lines).sum) (hpos : (sideAmounts true lines).sum ≠ 0) :
    2 ≤ lines.length := by
  have hd : sideAmounts true lines ≠ [] := fun he => hpos (by rw [he]; rfl)
  have hc : sideAmounts false lines ≠ [] := fun he => hpos (by rw [h, he]; rfl)
  have h1 := List.length_pos_iff.2 hd
  have h2 := List.length_pos_iff.2 hc
  rw [length_eq_sides]
  omega

/-- The control side is positive. -/
theorem journalSides_pos (documentType : DocType) (splits : Bool) {total : ℚ} (lines : List DocumentLineInput)
    (htotal : 0 < total) :
    0 < (journalSides documentType splits total lines).1.sum ∨ 0 < (journalSides documentType splits total lines).2.sum := by
  by_cases hdetailed : ((strategyFor documentType).detailed && !lines.isEmpty) = true
  · cases hc : lineDetailIsCredit documentType
    · right
      by_cases hany : ReachesDetail splits lines
      · simpa [journalSides, hdetailed, hc, hany] using htotal
      · simpa [journalSides, hdetailed, hc, hany] using add_pos htotal htotal
    · left
      simpa [journalSides, hdetailed, hc] using htotal
  · left
    simpa [journalSides, hdetailed] using htotal

/-- A built draft is positive on both sides and has at least two lines. -/
theorem build_pos {db : Db} {documentType : DocType} {total : ℚ} {description : String}
    {lines : List DocumentLineInput} {draft : JournalDraft}
    (h : build db documentType total description lines = .ok draft) :
    0 < draft.debitTotal ∧ 2 ≤ draft.lines.length := by
  obtain ⟨htotal, control, -, -, hbalanced, hdebit, hcredit⟩ := build_spec h
  have hpos : 0 < draft.debitTotal := by
    rcases journalSides_pos documentType (splitsTax documentType control) lines htotal with hd | hc
    · rwa [JournalDraft.debitTotal, hdebit]
    · rwa [hbalanced, JournalDraft.creditTotal, hcredit]
  exact ⟨hpos, two_le_length_of_balanced hbalanced hpos.ne'⟩

end LcsSystem
