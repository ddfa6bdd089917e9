import LcsSystem.Finance.Posting
import LcsSystem.Finance.RuleResolution

/-!
# Credit notes mirror what they correct

The strategies of `src/backend/app/modules/finance/posting.py:125-136` put the control side of a credit note where its
invoice or bill has the detail. With rules that exchange the debit and the credit account, resolution exchanges them too,
and the journal of the credit note is that of the invoice with its sides exchanged, as long as a document line reaches its
own account. When none does, `_add_detailed` credits the total once more on either side (`posting.py:268`): an invoice
then balances where its credit note does not.
-/

namespace LcsSystem
open Relational DecimalArith Checks

/-! ## Rule sets -/

/-- The document types with those that correct them. -/
def correctedBy : List (DocType × DocType) := [(.customerInvoice, .creditNote), (.supplierBill, .supplierCreditNote)]

/-- The rule for another document type, its accounts exchanged. -/
def PostingRule.mirrored (documentType : DocType) (r : PostingRule) : PostingRule :=
  { r with documentType := documentType, debitAccountId := r.creditAccountId, creditAccountId := r.debitAccountId }

/-- The rules of a document type. -/
def rulesOf (db : Db) (documentType : DocType) : List PostingRule :=
  db.postingRules.values.filter fun r => r.documentType == documentType

/-- The rules of the second type are those of the first one, their accounts exchanged. -/
def MirrorRules (db : Db) (a b : DocType) : Prop := (rulesOf db b).Perm ((rulesOf db a).map (PostingRule.mirrored b))

/-- The active rules of a scope. -/
def scopeRules (db : Db) (documentType : DocType) (feeTypeId : Option ℕ) : List PostingRule :=
  (rulesOf db documentType).filter fun r => r.feeTypeId == feeTypeId && r.active

section
variable {db : Db} {a b : DocType}

theorem scopeRules_mirror (h : MirrorRules db a b) (feeTypeId : Option ℕ) :
    (scopeRules db b feeTypeId).Perm ((scopeRules db a feeTypeId).map (PostingRule.mirrored b)) := by
  have hfilter := List.Perm.filter (fun r : PostingRule => r.feeTypeId == feeTypeId && r.active) h
  rwa [List.filter_map] at hfilter

/-! ## Tiers -/

/-- The rows of a tier in the order that they are read. -/
def tierRows (db : Db) (documentType : DocType) (feeTypeId : Option ℕ) : List (ℕ × PostingRule) :=
  (db.postingRules.rows.filter fun r =>
    r.2.documentType == documentType && r.2.feeTypeId == feeTypeId && r.2.active).insertionSort ruleOrder

/-- The outcome of a tier from its rows. -/
def tierTop (documentType : DocType) (feeTypeId : Option ℕ) (rows : List (ℕ × PostingRule)) :
    Result (Option (ℕ × PostingRule)) :=
  match rows.take 2 with
  | [] => .ok none
  | top :: rest => do
    check (∀ r ∈ rest, r.2.priority ≠ top.2.priority) (.conflict "AMBIGUOUS_POSTING_RULE"
      ("More than one active posting rule with priority " ++ toString top.2.priority ++ " matches " ++
        documentType.code ++ ".")
      [(if feeTypeId.isSome then "feeTypeId" else "documentType", "Two active rules share the same priority.")])
    return some top

theorem tier_eq (db : Db) (documentType : DocType) (feeTypeId : Option ℕ) :
    tier db documentType feeTypeId = tierTop documentType feeTypeId (tierRows db documentType feeTypeId) := rfl

theorem tierRows_perm (db : Db) (documentType : DocType) (feeTypeId : Option ℕ) :
    ((tierRows db documentType feeTypeId).map Prod.snd).Perm (scopeRules db documentType feeTypeId) := by
  refine ((List.perm_insertionSort _ _).map Prod.snd).trans ?_
  rw [scopeRules, rulesOf, Table.values, List.filter_filter, List.filter_map]
  refine List.Perm.of_eq (congrArg _ (List.filter_congr fun r _ => ?_))
  simp only [Function.comp_apply]
  cases r.2.documentType == documentType <;> simp

/-- The rules of the scope that stand no lower than `r`. -/
def notBelow (db : Db) (documentType : DocType) (feeTypeId : Option ℕ) (priority : ℤ) : List PostingRule :=
  (scopeRules db documentType feeTypeId).filter fun s => decide (priority ≤ s.priority)

theorem priority_le_of_ruleOrder {r s : ℕ × PostingRule} (h : ruleOrder r s) : s.2.priority ≤ r.2.priority := by
  rcases h with h | ⟨h, -⟩ <;> omega

theorem tierTop_eq_none {documentType : DocType} {feeTypeId : Option ℕ} {rows : List (ℕ × PostingRule)} :
    tierTop documentType feeTypeId rows = .ok none ↔ rows = [] := by
  cases rows with
  | nil => exact ⟨fun _ => rfl, fun _ => rfl⟩
  | cons top rest =>
    refine ⟨fun h => ?_, fun h => by cases h⟩
    simp only [tierTop, List.take_succ_cons, bind_eq_ok, pure_eq_ok] at h
    obtain ⟨_, -, h⟩ := h
    cases h

theorem tierTop_eq_some {documentType : DocType} {feeTypeId : Option ℕ} {top r : ℕ × PostingRule}
    {rest : List (ℕ × PostingRule)} :
    tierTop documentType feeTypeId (top :: rest) = .ok (some r) ↔
      top = r ∧ ∀ s ∈ rest.take 1, s.2.priority ≠ top.2.priority := by
  simp only [tierTop, List.take_succ_cons, bind_eq_ok, check_eq_ok, pure_eq_ok, Option.some.injEq]
  constructor
  · rintro ⟨_, h, rfl⟩
    exact ⟨rfl, h⟩
  · rintro ⟨rfl, h⟩
    exact ⟨⟨⟩, h, rfl⟩

theorem tier_eq_none {documentType : DocType} {feeTypeId : Option ℕ} :
    tier db documentType feeTypeId = .ok none ↔ scopeRules db documentType feeTypeId = [] := by
  have hperm := tierRows_perm db documentType feeTypeId
  rw [tier_eq, tierTop_eq_none]
  constructor
  · intro h
    rw [h, List.map_nil] at hperm
    exact (List.Perm.nil_eq hperm).symm
  · intro h
    rw [h] at hperm
    exact List.map_eq_nil_iff.1 hperm.eq_nil

/-- A tier is its one rule with the highest priority. -/
theorem tier_eq_some {documentType : DocType} {feeTypeId : Option ℕ} {x : PostingRule} :
    (∃ id, tier db documentType feeTypeId = .ok (some (id, x))) ↔ notBelow db documentType feeTypeId x.priority = [x] := by
  have hperm := (tierRows_perm db documentType feeTypeId).filter fun s => decide (x.priority ≤ s.priority)
  have hsorted : (tierRows db documentType feeTypeId).Pairwise ruleOrder := List.pairwise_insertionSort _ _
  rw [tier_eq, notBelow]
  generalize tierRows db documentType feeTypeId = rows at hperm hsorted ⊢
  cases rows with
  | nil =>
    rw [List.map_nil, List.filter_nil] at hperm
    rw [(List.Perm.nil_eq hperm).symm]
    refine ⟨?_, fun h => by cases h⟩
    rintro ⟨id, h⟩
    cases h
  | cons top rest =>
    rw [List.pairwise_cons] at hsorted
    rw [List.map_cons] at hperm
    simp only [tierTop_eq_some]
    constructor
    · rintro ⟨id, rfl, hfirst⟩
      dsimp only at hperm hsorted hfirst ⊢
      have hlower : ∀ s ∈ rest, s.2.priority < x.priority := by
        intro s hs
        obtain ⟨second, tail, rfl⟩ := List.exists_cons_of_ne_nil (List.ne_nil_of_mem hs)
        have hsecond : second.2.priority < x.priority :=
          lt_of_le_of_ne (priority_le_of_ruleOrder (hsorted.1 second List.mem_cons_self)) (hfirst second List.mem_cons_self)
        rcases List.mem_cons.1 hs with rfl | hs
        · exact hsecond
        · exact (priority_le_of_ruleOrder ((List.pairwise_cons.1 hsorted.2).1 s hs)).trans_lt hsecond
      have hrest : (rest.map Prod.snd).filter (fun s => decide (x.priority ≤ s.priority)) = [] := by
        rw [List.filter_eq_nil_iff]
        intro s hs
        obtain ⟨r, hr, rfl⟩ := List.mem_map.1 hs
        simpa using hlower r hr
      rw [List.filter_cons_of_pos (by simp), hrest] at hperm
      exact List.perm_singleton.1 hperm.symm
    · intro hone
      rw [hone, List.perm_singleton] at hperm
      have hx : x ∈ top.2 :: rest.map Prod.snd := List.mem_of_mem_filter (hperm ▸ List.mem_cons_self)
      have htop : x.priority ≤ top.2.priority := by
        rcases List.mem_cons.1 hx with rfl | hx
        · exact le_rfl
        · obtain ⟨r, hr, rfl⟩ := List.mem_map.1 hx
          exact priority_le_of_ruleOrder (hsorted.1 r hr)
      rw [List.filter_cons_of_pos (by simpa using htop), List.cons.injEq] at hperm
      refine ⟨top.1, Prod.ext rfl hperm.1, fun r hr heq => ?_⟩
      have hmem : r.2 ∈ rest.map Prod.snd := List.mem_map.2 ⟨r, List.mem_of_mem_take hr, rfl⟩
      exact List.filter_eq_nil_iff.1 hperm.2 r.2 hmem (by simpa [heq] using htop)

/-! ## Resolution -/

theorem tier_mirror (h : MirrorRules db a b) {feeTypeId : Option ℕ} {choice : Option (ℕ × PostingRule)}
    (htier : tier db a feeTypeId = .ok choice) :
    ∃ choice', tier db b feeTypeId = .ok choice' ∧ choice'.map Prod.snd = choice.map fun r => r.2.mirrored b := by
  have hperm := scopeRules_mirror h feeTypeId
  cases choice with
  | none =>
    rw [tier_eq_none.1 htier, List.map_nil] at hperm
    exact ⟨none, tier_eq_none.2 hperm.eq_nil, rfl⟩
  | some r =>
    have hone := tier_eq_some.1 ⟨r.1, htier⟩
    have hfilter := hperm.filter fun s => decide (r.2.priority ≤ s.priority)
    rw [List.filter_map] at hfilter
    have hsame : ((scopeRules db a feeTypeId).filter
        ((fun s => decide (r.2.priority ≤ s.priority)) ∘ PostingRule.mirrored b)) = [r.2] := hone
    rw [hsame, List.map_singleton, List.perm_singleton] at hfilter
    have hone' : notBelow db b feeTypeId (r.2.mirrored b).priority = [r.2.mirrored b] := hfilter
    obtain ⟨id, hid⟩ := tier_eq_some.2 hone'
    exact ⟨_, hid, rfl⟩

theorem selectRule_mirror (h : MirrorRules db a b) {feeTypeId : Option ℕ} {choice : Option (ℕ × PostingRule)}
    (hselect : selectRule db a feeTypeId = .ok choice) :
    ∃ choice', selectRule db b feeTypeId = .ok choice' ∧ choice'.map Prod.snd = choice.map fun r => r.2.mirrored b := by
  cases feeTypeId with
  | none => exact tier_mirror h hselect
  | some fee =>
    simp only [selectRule, bind_eq_ok] at hselect ⊢
    obtain ⟨exact, hexact, hselect⟩ := hselect
    obtain ⟨exact', hexact', hmap⟩ := tier_mirror h hexact
    cases exact with
    | some r =>
      cases hselect
      cases exact' with
      | none => cases hmap
      | some r' => exact ⟨some r', ⟨some r', hexact', rfl⟩, hmap⟩
    | none =>
      cases exact' with
      | some r' => cases hmap
      | none =>
        obtain ⟨choice', hchoice', hmap'⟩ := tier_mirror h hselect
        exact ⟨choice', ⟨none, hexact', hchoice'⟩, hmap'⟩

/-- Two document types whose rules and default accounts exchange debit and credit. -/
structure MirrorTypes (db : Db) (a b : DocType) : Prop where
  rules : MirrorRules db a b
  defaults : defaultAccounts b = (defaultAccounts a).swap
  sides : lineDetailIsCredit b = !lineDetailIsCredit a
  detailed : (strategyFor a).detailed = true ∧ (strategyFor b).detailed = true
  splits : (strategyFor a).splitsTax = true ∧ (strategyFor b).splitsTax = true

theorem mirrorTypes (hpair : (a, b) ∈ correctedBy) (hrules : MirrorRules db a b) : MirrorTypes db a b := by
  simp only [correctedBy, List.mem_cons, Prod.mk.injEq, List.not_mem_nil, or_false] at hpair
  rcases hpair with ⟨rfl, rfl⟩ | ⟨rfl, rfl⟩ <;> exact ⟨hrules, rfl, rfl, ⟨rfl, rfl⟩, rfl, rfl⟩

theorem MirrorTypes.symm (h : MirrorTypes db a b) : MirrorTypes db b a where
  rules := by
    have hback : (rulesOf db a).map (PostingRule.mirrored a ∘ PostingRule.mirrored b) = rulesOf db a := by
      refine (List.map_congr_left fun r hr => ?_).trans (List.map_id _)
      have htype : r.documentType = a := by simpa using (List.mem_filter.1 hr).2
      simp only [Function.comp_apply, PostingRule.mirrored, ← htype, id]
    have hperm := (h.rules.map (PostingRule.mirrored a)).symm
    rwa [List.map_map, hback] at hperm
  defaults := by rw [h.defaults, Prod.swap_swap]
  sides := by rw [h.sides, Bool.not_not]
  detailed := h.detailed.symm
  splits := h.splits.symm

/-- The accounts are those of the mirrored rule. -/
def Swapped (x y : PostingRuleAccounts) : Prop := y.debit = x.credit ∧ y.credit = x.debit ∧ y.tax = x.tax

theorem accountsOf_mirror (h : MirrorTypes db a b) {debitLabel creditLabel debitLabel' creditLabel' : String}
    {choice choice' : Option (ℕ × PostingRule)} (hchoice : choice'.map Prod.snd = choice.map fun r => r.2.mirrored b)
    {accounts : PostingRuleAccounts} (haccounts : accountsOf db a debitLabel creditLabel choice = .ok accounts) :
    ∃ accounts', accountsOf db b debitLabel' creditLabel' choice' = .ok accounts' ∧ Swapped accounts accounts' := by
  cases choice with
  | none =>
    cases choice' with
    | some r => cases hchoice
    | none =>
      simp only [accountsOf, legacyAccounts, bind_eq_ok, pure_eq_ok, validatePostable_eq_ok] at haccounts ⊢
      obtain ⟨debit, hdebit, credit, hcredit, rfl⟩ := haccounts
      rw [h.defaults]
      exact ⟨_, ⟨credit, hcredit, debit, hdebit, rfl⟩, rfl, rfl, rfl⟩
  | some r =>
    cases choice' with
    | none => cases hchoice
    | some r' =>
      obtain ⟨id, rule⟩ := r
      obtain ⟨id', rule'⟩ := r'
      obtain rfl : rule' = rule.mirrored b := Option.some.inj hchoice
      simp only [accountsOf, PostingRule.mirrored] at haccounts ⊢
      cases htaxId : rule.taxAccountId with
      | none =>
        simp only [htaxId, bind_eq_ok, pure_eq_ok, validatePostable_eq_ok] at haccounts ⊢
        obtain ⟨debit, hdebit, credit, hcredit, tax, htax, rfl⟩ := haccounts
        exact ⟨_, ⟨credit, hcredit, debit, hdebit, tax, htax, rfl⟩, rfl, rfl, rfl⟩
      | some taxId =>
        simp only [htaxId, bind_eq_ok, pure_eq_ok, validatePostable_eq_ok] at haccounts ⊢
        obtain ⟨debit, hdebit, credit, hcredit, tax, htax, rfl⟩ := haccounts
        exact ⟨_, ⟨credit, hcredit, debit, hdebit, tax, htax, rfl⟩, rfl, rfl, rfl⟩

theorem resolve_mirror (h : MirrorTypes db a b) {feeTypeId : Option ℕ}
    {debitLabel creditLabel debitLabel' creditLabel' : String} {accounts : PostingRuleAccounts}
    (hresolve : resolve db a feeTypeId debitLabel creditLabel = .ok accounts) :
    ∃ accounts', resolve db b feeTypeId debitLabel' creditLabel' = .ok accounts' ∧ Swapped accounts accounts' := by
  rw [resolve_eq, bind_eq_ok] at hresolve
  obtain ⟨choice, hchoice, haccounts⟩ := hresolve
  obtain ⟨choice', hchoice', hmap⟩ := selectRule_mirror h.rules hchoice
  obtain ⟨accounts', haccounts', hswapped⟩ := accountsOf_mirror h hmap haccounts
  refine ⟨accounts', ?_, hswapped⟩
  rw [resolve_eq, bind_eq_ok]
  exact ⟨choice', hchoice', haccounts'⟩

/-! ## Drafts -/

/-- The line on the other side. -/
def DraftLine.flipped (l : DraftLine) : DraftLine := { l with debit := !l.debit }

theorem draftLine_flipped (account : Account) (amount : ℚ) (debit : Bool) (description : String) :
    (draftLine account amount debit description).map DraftLine.flipped = draftLine account amount (!debit) description := by
  unfold draftLine
  split <;> rfl

theorem taxLines_flipped (tax : Option Account) (debit : Bool) (description : String) (line : DocumentLineInput) :
    (taxLines tax debit description line).map DraftLine.flipped = taxLines tax (!debit) description line := by
  cases tax with
  | none => rfl
  | some account => exact draftLine_flipped ..

theorem sideAmounts_flipped (debit : Bool) (lines : List DraftLine) :
    sideAmounts debit (lines.map DraftLine.flipped) = sideAmounts (!debit) lines := by
  rw [sideAmounts, sideAmounts, List.filter_map, List.map_map]
  refine congrArg (List.map DraftLine.amount) (List.filter_congr fun l _ => ?_)
  simp only [Function.comp_apply, DraftLine.flipped]
  cases l.debit <;> cases debit <;> rfl

theorem detailAccount_mirror (h : MirrorTypes db a b) {line : DocumentLineInput} {account : Account}
    (haccount : detailAccount db a line = .ok account) : detailAccount db b line = .ok account := by
  unfold detailAccount at haccount ⊢
  cases hid : line.accountId with
  | some id =>
    rw [hid] at haccount
    exact haccount
  | none =>
    rw [hid] at haccount
    simp only [bind_eq_ok, pure_eq_ok] at haccount ⊢
    obtain ⟨accounts, hresolve, rfl⟩ := haccount
    obtain ⟨accounts', hresolve', hdebit, hcredit, -⟩ := resolve_mirror h hresolve
    refine ⟨accounts', hresolve', ?_⟩
    rw [h.sides, hdebit, hcredit]
    cases lineDetailIsCredit a <;> rfl

variable {tax : Option Account} {description : String}

theorem detailOf_mirror (h : MirrorTypes db a b) {line : DocumentLineInput} {drafts : List DraftLine} {resolved : Bool}
    (hdetail : detailOf db a tax description line = .ok (drafts, resolved)) :
    detailOf db b tax description line = .ok (drafts.map DraftLine.flipped, resolved) := by
  unfold detailOf at hdetail ⊢
  rw [h.sides]
  split at hdetail
  next hrest =>
    cases hdetail
    rw [if_pos hrest, taxLines_flipped]
  next hrest =>
    simp only [bind_eq_ok, pure_eq_ok] at hdetail
    obtain ⟨account, haccount, hdetail⟩ := hdetail
    cases hdetail
    rw [if_neg hrest, detailAccount_mirror h haccount, List.map_append, taxLines_flipped, draftLine_flipped]
    rfl

theorem detailLines_mirror (h : MirrorTypes db a b) : ∀ {lines : List DocumentLineInput} {drafts : List DraftLine}
    {resolvedAny : Bool}, detailLines db a tax description lines = .ok (drafts, resolvedAny) →
    detailLines db b tax description lines = .ok (drafts.map DraftLine.flipped, resolvedAny) := by
  intro lines
  induction lines with
  | nil =>
    intro drafts resolvedAny hlines
    cases hlines
    rfl
  | cons line lines ih =>
    intro drafts resolvedAny hlines
    simp only [detailLines, bind_eq_ok, pure_eq_ok] at hlines
    obtain ⟨⟨first, resolved⟩, hfirst, ⟨rest, any⟩, hrest, hlines⟩ := hlines
    cases hlines
    simp only [detailLines, detailOf_mirror h hfirst, ih hrest, ok_bind, List.map_append]
    rfl

variable {total : ℚ} {lines : List DocumentLineInput} {control control' : PostingRuleAccounts}

theorem splitsTax_mirror (h : MirrorTypes db a b) (hcontrol : Swapped control control') :
    splitsTax b control' = splitsTax a control := by
  rw [splitsTax, splitsTax, h.splits.1, h.splits.2, hcontrol.2.2]

/-- Where a line reaches its own account, or there is none, the drafts are mirrored. -/
theorem draftLines_mirror (h : MirrorTypes db a b) (hcontrol : Swapped control control')
    (hreach : lines = [] ∨ ReachesDetail (splitsTax a control) lines) {drafts : List DraftLine}
    (hdrafts : draftLines db a total control description lines = .ok drafts) :
    ∃ drafts', draftLines db b total control' description lines = .ok drafts' ∧ drafts'.Perm (drafts.map DraftLine.flipped) := by
  obtain ⟨hdebit, hcredit, htax⟩ := hcontrol
  cases lines with
  | nil =>
    simp only [draftLines, List.isEmpty_nil, Bool.not_true, Bool.and_false, Bool.false_eq_true, if_false] at hdrafts ⊢
    cases hdrafts
    refine ⟨_, rfl, ?_⟩
    rw [twoSided, twoSided, List.map_append, draftLine_flipped, draftLine_flipped, hdebit, hcredit]
    exact List.perm_append_comm
  | cons line lines =>
    have hreach' := hreach.resolve_left (List.cons_ne_nil _ _)
    simp only [draftLines, h.detailed.1, h.detailed.2, List.isEmpty_cons, Bool.not_false, Bool.and_true, if_true,
      addDetailed, h.splits.1, h.splits.2, bind_eq_ok, pure_eq_ok] at hdrafts ⊢
    obtain ⟨⟨details, any⟩, hdetails, rfl⟩ := hdrafts
    have hany : any = true := by
      refine (detailLines_spec hdetails).2.2.2 ?_
      rwa [splitsTax, h.splits.1, Bool.true_and] at hreach'
    subst hany
    rw [htax]
    refine ⟨_, ⟨_, detailLines_mirror h hdetails, rfl⟩, ?_⟩
    rw [h.sides, hdebit, hcredit]
    simp only [if_true, List.append_nil, List.map_append, draftLine_flipped]
    cases lineDetailIsCredit a <;> exact List.Perm.refl _

/-- Where no line reaches its own account, the total is credited once more. -/
theorem build_unreached {documentType : DocType} (hdetailed : (strategyFor documentType).detailed = true)
    (htotal : 0 < total) (hcontrol : resolve db documentType none "debit" "credit" = .ok control) (hlines : lines ≠ [])
    (hreach : ¬ReachesDetail (splitsTax documentType control) lines) :
    (∃ draft, build db documentType total description lines = .ok draft) ↔
      (postedParts (splitsTax documentType control) lines).sum = if lineDetailIsCredit documentType then 0 else 2 * total := by
  have hempty : lines.isEmpty = false := by rwa [List.isEmpty_eq_false_iff]
  rw [build_isOk_iff description htotal hcontrol fun line hline hpos => absurd ⟨line, hline, hpos⟩ hreach, journalSides,
    hdetailed, hempty, Bool.not_false, Bool.and_true, if_pos rfl, if_neg hreach]
  cases lineDetailIsCredit documentType
  · simp only [Bool.false_eq_true, if_false, List.sum_cons, List.sum_nil, add_zero]
    rw [two_mul]
  · simp only [if_true, List.sum_append, List.sum_cons, List.sum_nil, add_zero]
    constructor <;> intro h <;> linarith

/-! ## The law -/

/-- The second draft is the first one with its sides exchanged, and is built exactly when the first one is. -/
def MirroredDrafts (x y : Result JournalDraft) : Prop :=
  ((∃ draft, x = .ok draft) ↔ ∃ draft, y = .ok draft) ∧
    ∀ draft draft', x = .ok draft → y = .ok draft' → draft'.lines.Perm (draft.lines.map DraftLine.flipped)

/-- There is no line, or one reaches its own account, or the posted taxes are neither nothing nor twice the total. -/
def BooksDetail (db : Db) (documentType : DocType) (total : ℚ) (lines : List DocumentLineInput) : Prop :=
  ∀ control, resolve db documentType none "debit" "credit" = .ok control →
    lines = [] ∨ ReachesDetail (splitsTax documentType control) lines ∨
      (postedParts (splitsTax documentType control) lines).sum ∉ [0, 2 * total]

theorem build_mirror (h : MirrorTypes db a b) (hcontrol : resolve db a none "debit" "credit" = .ok control)
    (hreach : lines = [] ∨ ReachesDetail (splitsTax a control) lines) {draft : JournalDraft}
    (hbuild : build db a total description lines = .ok draft) :
    ∃ draft', build db b total description lines = .ok draft' ∧ draft'.lines.Perm (draft.lines.map DraftLine.flipped) := by
  simp only [build, JournalDraft.assertBalanced, bind_eq_ok, check_eq_ok, pure_eq_ok] at hbuild ⊢
  obtain ⟨_, htotal, control₁, hcontrol₁, drafts, hdrafts, _, hbalanced, rfl⟩ := hbuild
  obtain rfl : control₁ = control := Except.ok.inj (hcontrol₁.symm.trans hcontrol)
  obtain ⟨control', hcontrol', hswapped⟩ := resolve_mirror h hcontrol
  obtain ⟨drafts', hdrafts', hperm⟩ := draftLines_mirror h hswapped hreach hdrafts
  have hsides : ∀ debit, (sideAmounts debit drafts').sum = (sideAmounts (!debit) drafts).sum := by
    intro debit
    rw [← sideAmounts_flipped]
    exact ((hperm.filter _).map _).sum_eq
  refine ⟨_, ⟨⟨⟩, htotal, control', hcontrol', drafts', hdrafts', ⟨⟩, ?_, rfl⟩, hperm⟩
  show (sideAmounts true drafts').sum = (sideAmounts false drafts').sum
  rw [hsides, hsides]
  exact hbalanced.symm

theorem of_build_ok {documentType : DocType} (h : ∃ draft, build db documentType total description lines = .ok draft) :
    ∃ control, resolve db documentType none "debit" "credit" = .ok control := by
  obtain ⟨draft, h⟩ := h
  obtain ⟨-, control, hcontrol, -⟩ := build_spec h
  exact ⟨control, hcontrol⟩

theorem mirrored_of_reaches (h : MirrorTypes db a b) (hcontrol : resolve db a none "debit" "credit" = .ok control)
    (hreach : lines = [] ∨ ReachesDetail (splitsTax a control) lines) :
    MirroredDrafts (build db a total description lines) (build db b total description lines) := by
  obtain ⟨control', hcontrol', hswapped⟩ := resolve_mirror h hcontrol
  have hreach' : lines = [] ∨ ReachesDetail (splitsTax b control') lines := by rwa [splitsTax_mirror h hswapped]
  refine ⟨⟨?_, ?_⟩, ?_⟩
  · rintro ⟨draft, hdraft⟩
    obtain ⟨draft', hdraft', -⟩ := build_mirror h hcontrol hreach hdraft
    exact ⟨draft', hdraft'⟩
  · rintro ⟨draft, hdraft⟩
    obtain ⟨draft', hdraft', -⟩ := build_mirror h.symm hcontrol' hreach' hdraft
    exact ⟨draft', hdraft'⟩
  · intro draft draft' hdraft hdraft'
    obtain ⟨other, hother, hperm⟩ := build_mirror h hcontrol hreach hdraft
    rw [hdraft'] at hother
    cases hother
    exact hperm

end

/-! ## Invoices and their credit notes -/

/-- The default rules of both types. -/
def noteRules : Table PostingRule :=
  (Table.empty.insert ⟨.customerInvoice, none, 3, 5, some 4, true, 0⟩).insert ⟨.creditNote, none, 5, 3, some 4, true, 0⟩

def withNoteRules (db : Db) : Db := { db with postingRules := noteRules }

theorem mirrorRules_withNoteRules (db : Db) : MirrorRules (withNoteRules db) .customerInvoice .creditNote :=
  List.Perm.refl _

def freightLine : DocumentLineInput := ⟨"Freight", 107, 7, none, none⟩

end LcsSystem
