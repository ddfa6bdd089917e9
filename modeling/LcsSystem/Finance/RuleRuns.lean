import LcsSystem.Finance.Documents
import LcsSystem.Finance.RuleResolution
import LcsSystem.Lib.Transactions

/-!
# Posting rules under interleaving

`create_posting_rule`, `update_posting_rule` (a direct status change is one) and `delete_posting_rules`
(`src/backend/app/modules/finance/service.py:2067-2416`) as transactions. A rule is read unlocked, checked
against the committed rules, flushed, and committed by the router after its audit row. The flush is where
the partial unique index decides: it waits for the transactions that hold an entry it needs and then
refuses an entry that is taken.

The description of a rule is left out, and so are unknown keys, which the schema refuses.
-/

namespace LcsSystem
open Relational Checks Transition Transactions Transactions.Outcome

/-! ## The values of a rule -/

structure PostingRulePayload where
  documentType : Field String
  /-- An accepted reference that is no id reads as none. -/
  feeTypeId : Field (Option ℕ)
  debitAccount : Field String
  creditAccount : Field String
  taxAccount : Field String
  status : Field String
  /-- Any JSON value; `malformed` is one that `int` refuses. -/
  priority : Field ℤ
  description : Field String

/-- `POSTING_RULE_WRITE_SCHEMA`. -/
def postingRuleWriteSchema (p : PostingRulePayload) : List FieldErrorItem :=
  TextSpec.check { key := "documentType", minLength := some 1, maxLength := some 32 } p.documentType ++
  checkReference "feeTypeId" p.feeTypeId ++
  TextSpec.check { key := "debitAccount", minLength := some 1, maxLength := some 64 } p.debitAccount ++
  TextSpec.check { key := "creditAccount", minLength := some 1, maxLength := some 64 } p.creditAccount ++
  TextSpec.check { key := "taxAccount", maxLength := some 64 } p.taxAccount ++
  TextSpec.check { key := "status", maxLength := some 20 } p.status ++
  TextSpec.check { key := "description", maxLength := some 2000 } p.description

/-- The first message of an error's fields, else its own. -/
def Error.fieldMessage : Error → String
  | .validationFailed message fieldErrors _ => (fieldErrors.head?.map Prod.snd).getD message
  | .notFound message | .invalidState message | .conflict _ message _ | .database message => message

/-- `_rule_account`: the account, or the message for its field. A stored account is kept unchecked when
the key was not sent. -/
def ruleAccount (db : Db) (sent : Field String) (stored : Option (Option ℕ)) (field label : String) (required : Bool) :
    Option Account × Option String :=
  match sent, stored with
  | .absent, some id => (id.bind (accountById db), none)
  | _, _ =>
    match sent.text.get? with
    | none => (none, if required then some ("Select the " ++ label ++ " account.") else none)
    | some reference =>
      match resolveAccountRef db reference with
      | none => (none, some "That account is not in the chart of accounts.")
      | some account =>
        match validatePostable (some account) label (some field) with
        | .ok account => (some account, none)
        | .error e => (none, some e.fieldMessage)

def invalidRule (fieldErrors : List (String × String)) : Error := .invalid "Please correct the posting rule." fieldErrors

/-- `_posting_rule_data` up to the check of the priority: the columns to write, from the body and the
rule that was read. -/
def postingRuleData (db : Db) (p : PostingRulePayload) (current : Option PostingRule) : Result PostingRule := do
  RecordSchema.validate (postingRuleWriteSchema p)
  let documentType := upper ((p.documentType.text.get?.or (current.map fun r => r.documentType.code)).getD "")
  let storedStatus := current.map fun r => if r.active then "ACTIVE" else "INACTIVE"
  let status := upper ((p.status.text.get?.or storedStatus).getD "ACTIVE")
  let feeTypeId := match p.feeTypeId with
    | .absent => current.bind PostingRule.feeTypeId
    | .value v => v
    | .blank | .malformed => none
  let (debit, debitError) :=
    ruleAccount db p.debitAccount (current.map fun r => some r.debitAccountId) "debitAccount" "debit" true
  let (credit, creditError) :=
    ruleAccount db p.creditAccount (current.map fun r => some r.creditAccountId) "creditAccount" "credit" true
  let (tax, taxError) := ruleAccount db p.taxAccount (current.map PostingRule.taxAccountId) "taxAccount" "tax" false
  let priority := match p.priority with
    | .absent | .blank => (current.map PostingRule.priority).getD 0
    | .malformed => 0
    | .value z => z
  let errors := [
    if documentType = "" then some ("documentType", "Select the document type this rule applies to.")
      else if DocType.ofCode? documentType = none then some ("documentType", "Unknown document type.") else none,
    if status ∈ ["ACTIVE", "INACTIVE"] then none else some ("status", "Status must be ACTIVE or INACTIVE."),
    debitError.map fun m => ("debitAccount", m),
    creditError.map fun m => ("creditAccount", m),
    taxError.map fun m => ("taxAccount", m),
    if p.priority = .malformed then some ("priority", "Priority must be a whole number.")
      else if priority < 0 then some ("priority", "Priority cannot be negative.") else none].reduceOption
  check (errors = []) (invalidRule errors)
  let known ← require (DocType.ofCode? documentType) (invalidRule errors)
  -- An assertion: a stored account is there by its foreign key, any other missing one is an error above.
  let debit ← require debit (.database "AssertionError")
  let credit ← require credit (.database "AssertionError")
  check (debit.id ≠ credit.id)
    (invalidRule [("creditAccount", "The credit account must differ from the debit account.")])
  return {
    documentType := known
    feeTypeId := feeTypeId
    debitAccountId := debit.id
    creditAccountId := credit.id
    taxAccountId := tax.map Account.id
    active := status == "ACTIVE"
    priority := priority }

/-- `_duplicate_priority`. -/
def duplicatePriority (values : PostingRule) : Error :=
  .conflict "DUPLICATE_POSTING_RULE" "An active posting rule already uses this document, fee type and priority."
    [(if values.feeTypeId.isSome then "feeTypeId" else "documentType",
        "Deactivate the existing rule, or give this one a different priority."),
      ("priority", "Priority " ++ toString values.priority ++ " is already taken for this scope.")]

/-- The query of `_assert_unique_priority`. -/
def samePriority (rules : Table PostingRule) (values : PostingRule) (excludeId : Option ℕ) : Bool :=
  rules.rows.any fun r => some r.1 != excludeId && r.2.documentType == values.documentType &&
    r.2.feeTypeId == values.feeTypeId && r.2.priority == values.priority && r.2.active

/-- `_assert_unique_priority`. -/
def assertUniquePriority (rules : Table PostingRule) (values : PostingRule) (excludeId : Option ℕ) : Result PUnit :=
  if values.active then check (samePriority rules values excludeId = false) (duplicatePriority values)
  else .ok ⟨⟩

/-! ## The transactions -/

deriving instance DecidableEq for PostingRule

/-- The `UPDATE` of an edit: the columns that differ from what was read. -/
def PostingRule.writeChanged (read new stored : PostingRule) : PostingRule where
  documentType := if new.documentType = read.documentType then stored.documentType else new.documentType
  feeTypeId := if new.feeTypeId = read.feeTypeId then stored.feeTypeId else new.feeTypeId
  debitAccountId := if new.debitAccountId = read.debitAccountId then stored.debitAccountId else new.debitAccountId
  creditAccountId := if new.creditAccountId = read.creditAccountId then stored.creditAccountId else new.creditAccountId
  taxAccountId := if new.taxAccountId = read.taxAccountId then stored.taxAccountId else new.taxAccountId
  active := if new.active = read.active then stored.active else new.active
  priority := if new.priority = read.priority then stored.priority else new.priority

inductive RuleRequest
  | create (p : PostingRulePayload)
  | update (ruleId : ℕ) (p : PostingRulePayload)
  | delete (ids : List ℕ)

/-- A direct status change. -/
def RuleRequest.changeStatus (ruleId : ℕ) (target : String) : RuleRequest :=
  .update ruleId {
    documentType := .absent, feeTypeId := .absent, debitAccount := .absent, creditAccount := .absent
    taxAccount := .absent, status := .value target, priority := .absent, description := .absent }

/-- The next statement of a request. `flushedNew` and `flushedUpdate` have written and not yet committed. -/
inductive RuleTxn
  | readRule (ruleId : ℕ) (p : PostingRulePayload)
  | readAccounts (current : Option (ℕ × PostingRule)) (p : PostingRulePayload)
  | readPriority (current : Option (ℕ × PostingRule)) (values : PostingRule)
  | flush (current : Option (ℕ × PostingRule)) (values : PostingRule)
  | flushedNew (values : PostingRule)
  | flushedUpdate (ruleId : ℕ) (stored new : PostingRule)
  | readDeleted (pending doomed : List ℕ)

inductive RuleLock
  | row (id : ℕ)
  | entry (key : DocType × ℕ × ℤ)
  deriving DecidableEq

/-- The index entries of rules. -/
def indexEntries (rules : List PostingRule) : List RuleLock := rules.filterMap fun r => r.indexKey.map .entry

/-- A flush holds the rows and the index entries it wrote, the old entry of an updated row included. -/
def RuleTxn.locks : RuleTxn → List RuleLock
  | .flushedNew values => indexEntries [values]
  | .flushedUpdate ruleId stored new => .row ruleId :: indexEntries [stored, new]
  | .readRule .. | .readAccounts .. | .readPriority .. | .flush .. | .readDeleted .. => []

/-- The index has the entry of `r` already, for another row than `excludeId`. -/
def indexTaken (rules : Table PostingRule) (r : PostingRule) (excludeId : Option ℕ) : Bool :=
  rules.rows.any fun s => some s.1 != excludeId && s.2.indexKey.isSome && s.2.indexKey == r.indexKey

/-- A rule that a posted journal names. -/
def ruleReferenced (db : Db) (ruleId : ℕ) : Bool := db.entries.values.any fun e => e.postingRuleId == some ruleId

/-- The fee type of a rule is there. -/
def feeTypeExists (db : Db) (r : PostingRule) : Bool := r.feeTypeId.all fun id => (db.feeTypes.get? id).isSome

def RuleTxn.next (db : Db) (free : RuleLock → Bool) : RuleTxn → Transactions.Outcome Db RuleTxn Unit
  | .readRule ruleId p => match db.postingRules.get? ruleId with
    | some rule => .continues (.readAccounts (some (ruleId, rule)) p)
    | none => .ends
  | .readAccounts current p =>
    orEnd (fun values => .continues (.readPriority current values)) (postingRuleData db p (current.map Prod.snd))
  | .readPriority current values => orEnd (fun (_ : PUnit.{1}) => .continues (.flush current values))
      (assertUniquePriority db.postingRules values (current.map Prod.fst))
  | .flush none values =>
    if (indexEntries [values]).all free then
      if indexTaken db.postingRules values none || !feeTypeExists db values then .ends
      else .continues (.flushedNew values)
    else .waits
  | .flush (some (ruleId, read)) values =>
    if values = read then .ends
    else whenFree free (.row ruleId) (match db.postingRules.get? ruleId with
      | none => .ends
      | some stored =>
        let new := PostingRule.writeChanged read values stored
        if (indexEntries [stored, new]).all free then
          if indexTaken db.postingRules new (some ruleId) || !feeTypeExists db new then .ends
          else .continues (.flushedUpdate ruleId stored new)
        else .waits)
  | .flushedNew values => .commits { db with postingRules := db.postingRules.insert values } none
  | .flushedUpdate ruleId _ new => .commits { db with postingRules := db.postingRules.modify ruleId fun _ => new } none
  | .readDeleted (ruleId :: pending) doomed => match db.postingRules.get? ruleId with
    | none => .continues (.readDeleted pending doomed)
    | some rule =>
      if rule.active || ruleReferenced db ruleId then .ends
      else .continues (.readDeleted pending (doomed ++ [ruleId]))
  | .readDeleted [] doomed =>
    if (doomed.map RuleLock.row).all free then
      .commits { db with postingRules := db.postingRules.erase fun id _ => decide (id ∈ doomed) } none
    else .waits

def ruleEditing : Protocol Db RuleRequest RuleTxn RuleLock Unit where
  start
    | .create p => .readAccounts none p
    | .update ruleId p => .readRule ruleId p
    | .delete ids => .readDeleted ids []
  locks := RuleTxn.locks
  next := RuleTxn.next

/-! ## What a flush relies on -/

/-- No other row than `excludeId` has the index entry of `r`. -/
def Untaken (rules : Table PostingRule) (r : PostingRule) (excludeId : Option ℕ) : Prop :=
  ∀ i s k, rules.get? i = some s → some i ≠ excludeId → s.indexKey = some k → r.indexKey ≠ some k

theorem untaken_of_indexTaken {rules : Table PostingRule} {r : PostingRule} {excludeId : Option ℕ}
    (h : indexTaken rules r excludeId = false) : Untaken rules r excludeId := by
  intro i s k hs hne hk hr
  have hno := List.any_eq_false.1 h _ (Table.get?_eq_some.1 hs)
  simp [hne, hk, hr] at hno

/-- What an open transaction relies on: its entry is free in the committed table, and the row it updated
is as it was. -/
def RuleTxn.Holds (db : Db) : RuleTxn → Prop
  | .flushedNew values => Untaken db.postingRules values none
  | .flushedUpdate ruleId stored new =>
    db.postingRules.get? ruleId = some stored ∧ Untaken db.postingRules new (some ruleId)
  | _ => True

section
variable {db db' : Db} {log : List Unit} {free : RuleLock → Bool} {t t' u : RuleTxn} {event : Option Unit}

/-- Locks are taken at the flush only. -/
theorem RuleTxn.next_continues (h : t.next db free = .continues t') :
    t'.Holds db ∧ ∀ k ∈ t'.locks, k ∈ t.locks ∨ free k = true := by
  cases t with
  | readRule ruleId p =>
    simp only [RuleTxn.next] at h
    split at h <;> cases h
    simp [RuleTxn.Holds, RuleTxn.locks]
  | readAccounts current p =>
    simp only [RuleTxn.next, orEnd_eq_continues] at h
    obtain ⟨values, -, h⟩ := h
    cases h
    simp [RuleTxn.Holds, RuleTxn.locks]
  | readPriority current values =>
    simp only [RuleTxn.next, orEnd_eq_continues] at h
    obtain ⟨_, -, h⟩ := h
    cases h
    simp [RuleTxn.Holds, RuleTxn.locks]
  | flush current values =>
    cases current with
    | none =>
      simp only [RuleTxn.next] at h
      split at h
      · next hfree =>
        split at h
        · cases h
        · next htaken =>
          cases h
          simp only [Bool.or_eq_true, not_or, Bool.not_eq_true] at htaken
          exact ⟨untaken_of_indexTaken htaken.1, fun k hk => .inr (List.all_eq_true.1 hfree k hk)⟩
      · cases h
    | some current =>
      simp only [RuleTxn.next] at h
      split at h
      · cases h
      · obtain ⟨hrow, h⟩ := whenFree_eq_continues.1 h
        split at h
        · cases h
        · next stored hstored =>
          split at h
          · next hfree =>
            split at h
            · cases h
            · next htaken =>
              cases h
              simp only [Bool.or_eq_true, not_or, Bool.not_eq_true] at htaken
              refine ⟨⟨hstored, untaken_of_indexTaken htaken.1⟩, fun k hk => .inr ?_⟩
              rcases List.mem_cons.1 hk with rfl | hk
              · exact hrow
              · exact List.all_eq_true.1 hfree k hk
          · cases h
  | flushedNew values => cases h
  | flushedUpdate ruleId stored new => cases h
  | readDeleted pending doomed =>
    cases pending with
    | nil =>
      simp only [RuleTxn.next] at h
      split at h <;> cases h
    | cons ruleId pending =>
      simp only [RuleTxn.next] at h
      split at h
      · cases h
        simp [RuleTxn.Holds, RuleTxn.locks]
      · split at h <;> cases h
        simp [RuleTxn.Holds, RuleTxn.locks]

/-- What a commit writes. -/
inductive RuleWrite (rules : Table PostingRule) (free : RuleLock → Bool) : RuleTxn → Table PostingRule → Prop
  | create (values : PostingRule) : RuleWrite rules free (.flushedNew values) (rules.insert values)
  | update (ruleId : ℕ) (stored new : PostingRule) :
      RuleWrite rules free (.flushedUpdate ruleId stored new) (rules.modify ruleId fun _ => new)
  | delete (doomed : List ℕ) (lock : ∀ id ∈ doomed, free (.row id) = true) :
      RuleWrite rules free (.readDeleted [] doomed) (rules.erase fun id _ => decide (id ∈ doomed))

theorem RuleTxn.next_commits (h : t.next db free = .commits db' event) :
    RuleWrite db.postingRules free t db'.postingRules := by
  cases t with
  | readRule ruleId p =>
    simp only [RuleTxn.next] at h
    split at h <;> cases h
  | readAccounts current p => simp [RuleTxn.next] at h
  | readPriority current values => simp [RuleTxn.next] at h
  | flush current values =>
    cases current with
    | none =>
      simp only [RuleTxn.next] at h
      split at h
      · split at h <;> cases h
      · cases h
    | some current =>
      simp only [RuleTxn.next] at h
      split at h
      · cases h
      · obtain ⟨-, h⟩ := whenFree_eq_commits.1 h
        split at h
        · cases h
        · split at h
          · split at h <;> cases h
          · cases h
  | flushedNew values =>
    cases h
    exact .create values
  | flushedUpdate ruleId stored new =>
    cases h
    exact .update ruleId stored new
  | readDeleted pending doomed =>
    cases pending with
    | nil =>
      simp only [RuleTxn.next] at h
      split at h
      · next hfree =>
        cases h
        exact .delete doomed fun id hid => List.all_eq_true.1 hfree _ (List.mem_map.2 ⟨id, hid, rfl⟩)
      · cases h
    | cons ruleId pending =>
      simp only [RuleTxn.next] at h
      split at h
      · cases h
      · split at h <;> cases h

theorem mem_indexEntries {rules : List PostingRule} {k : DocType × ℕ × ℤ} :
    RuleLock.entry k ∈ indexEntries rules ↔ ∃ r ∈ rules, r.indexKey = some k := by
  simp [indexEntries]

namespace RuleWrite

/-- The index keeps its entries unique. -/
theorem activeUnique (w : RuleWrite db.postingRules free t db'.postingRules) (hunique : ActiveUnique db.postingRules)
    (ht : t.Holds db) : ActiveUnique db'.postingRules := by
  intro i j r s k hi hj hr hs
  revert hi hj
  generalize db'.postingRules = rules' at w
  intro hi hj
  cases w with
  | create values =>
    rw [Table.get?_insert] at hi hj
    split at hi
    · next hi' =>
      cases hi
      split at hj
      · next hj' => rw [hi', hj']
      · exact absurd hr (ht j s k hj (by simp) hs)
    · split at hj
      · cases hj
        exact absurd hs (ht i r k hi (by simp) hr)
      · exact hunique i j r s k hi hj hr hs
  | update ruleId stored new =>
    obtain ⟨hstored, huntaken⟩ := ht
    rw [Table.get?_modify] at hi hj
    split at hi
    · next hi' =>
      obtain ⟨_, -, rfl⟩ := Option.map_eq_some_iff.1 hi
      split at hj
      · next hj' => rw [hi', hj']
      · next hj' => exact absurd hr (huntaken j s k hj (by simpa using hj') hs)
    · next hi' =>
      split at hj
      · obtain ⟨_, -, rfl⟩ := Option.map_eq_some_iff.1 hj
        exact absurd hs (huntaken i r k hi (by simpa using hi') hr)
      · exact hunique i j r s k hi hj hr hs
  | delete doomed =>
    rw [Table.get?_erase, Option.filter_eq_some_iff] at hi hj
    exact hunique i j r s k hi.1 hj.1 hr hs

/-- A flush of another transaction stays valid: the entries and rows it holds are not written. -/
theorem frame (w : RuleWrite db.postingRules free t db'.postingRules) (ht : t.Holds db) (hu : u.Holds db)
    (hlocks : ∀ k ∈ u.locks, k ∉ t.locks ∧ free k = false) : u.Holds db' := by
  -- A rule that `t` writes has none of the entries of `u`.
  have hentry {v new : PostingRule} {k : DocType × ℕ × ℤ} (hnew : ∀ k, new.indexKey = some k → .entry k ∈ t.locks)
      (hv : ∀ k, v.indexKey = some k → .entry k ∈ u.locks) (hk : new.indexKey = some k) : v.indexKey ≠ some k :=
    fun hvk => (hlocks _ (hv k hvk)).1 (hnew k hk)
  have huntaken {v : PostingRule} {excludeId : Option ℕ} (hv : ∀ k, v.indexKey = some k → .entry k ∈ u.locks)
      (h : Untaken db.postingRules v excludeId) : Untaken db'.postingRules v excludeId := by
    intro i s k hs hne hk
    revert hs
    generalize db'.postingRules = rules' at w
    intro hs
    cases w with
    | create values =>
      rw [Table.get?_insert] at hs
      split at hs
      · cases hs
        exact hentry (fun k hk => mem_indexEntries.2 ⟨_, List.mem_singleton.2 rfl, hk⟩) hv hk
      · exact h i s k hs hne hk
    | update ruleId stored new =>
      rw [Table.get?_modify] at hs
      split at hs
      · obtain ⟨_, -, rfl⟩ := Option.map_eq_some_iff.1 hs
        exact hentry (fun k hk => List.mem_cons_of_mem _ (mem_indexEntries.2 ⟨new, by simp, hk⟩)) hv hk
      · exact h i s k hs hne hk
    | delete doomed =>
      rw [Table.get?_erase, Option.filter_eq_some_iff] at hs
      exact h i s k hs.1 hne hk
  cases u with
  | readRule | readAccounts | readPriority | flush | readDeleted => trivial
  | flushedNew v => exact huntaken (fun k hk => mem_indexEntries.2 ⟨v, List.mem_singleton.2 rfl, hk⟩) hu
  | flushedUpdate id stored v =>
    refine ⟨?_, huntaken (fun k hk => List.mem_cons_of_mem _ (mem_indexEntries.2 ⟨v, by simp, hk⟩)) hu.2⟩
    obtain ⟨hnot, hbusy⟩ := hlocks (.row id) List.mem_cons_self
    have hstored := hu.1
    generalize db'.postingRules = rules' at w
    cases w with
    | create values => exact Table.get?_insert_of_some hstored
    | update ruleId stored' new =>
      have hne : id ≠ ruleId := by
        rintro rfl
        exact hnot List.mem_cons_self
      exact (Table.get?_modify_of_ne _ hne).trans hstored
    | delete doomed lock =>
      have hkept : id ∉ doomed := by
        intro hid
        rw [lock id hid] at hbusy
        cases hbusy
      rw [Table.get?_erase, hstored]
      simp [Option.filter, hkept]

end RuleWrite
end

theorem ruleEditing_rules :
    Rules ruleEditing (fun db _ => ActiveUnique db.postingRules) (fun db t => t.Holds db) (fun _ _ _ => True) where
  start_locks r := by cases r <;> rfl
  start _ r := by cases r <;> trivial
  acquires h := (RuleTxn.next_continues h).2
  continues _ _ _ h := (RuleTxn.next_continues h).1
  commits hI hT _ h := (RuleTxn.next_commits h).activeUnique hI hT
  frame _ hT hu _ hlocks h := (RuleTxn.next_commits h).frame hT hu hlocks

/-! ## Resolution in every reachable state -/

/-- Resolution of a scope is determined: there is one choice, its accounts are the answer, no tie is
reported, and the same rules under other keys and in another order lead to the same rule. -/
structure Determined (db : Db) (documentType : DocType) (feeTypeId : Option ℕ) (choice : Option (ℕ × PostingRule)) :
    Prop where
  chosen : Chooses db.postingRules documentType feeTypeId choice
  unique : ∀ other, Chooses db.postingRules documentType feeTypeId other → other = choice
  accounts : ∀ labelDebit labelCredit, resolve db documentType feeTypeId labelDebit labelCredit =
    accountsOf db documentType labelDebit labelCredit choice
  unambiguous : ∀ labelDebit labelCredit message fieldErrors,
    resolve db documentType feeTypeId labelDebit labelCredit ≠
      .error (.conflict "AMBIGUOUS_POSTING_RULE" message fieldErrors)
  orderFree : ∀ rules, (∀ r, r ∈ db.postingRules.values ↔ r ∈ rules.values) →
    ∀ other, Chooses rules documentType feeTypeId other → other.map Prod.snd = choice.map Prod.snd

theorem determined_of_activeUnique {db : Db} (hunique : ActiveUnique db.postingRules) (documentType : DocType)
    (feeTypeId : Option ℕ) : ∃ choice, Determined db documentType feeTypeId choice := by
  obtain ⟨choice, hselect, hchooses⟩ := selectRule_spec hunique documentType feeTypeId
  have hresolve (labelDebit labelCredit : String) : resolve db documentType feeTypeId labelDebit labelCredit =
      accountsOf db documentType labelDebit labelCredit choice := by
    rw [resolve_eq, hselect, ok_bind]
  refine ⟨choice, hchooses, fun other hother => hother.unique hchooses, hresolve, ?_, ?_⟩
  · intro labelDebit labelCredit message fieldErrors
    rw [hresolve]
    exact accountsOf_ne_conflict _ _ _ _ _ _ _ _
  · intro rules hvalues other hother
    exact (hchooses.value_eq hvalues hother).symm

/-- **Resolution is never arbitrary**, after every interleaving of rule edits. -/
theorem resolution_never_arbitrary {db : Db} (hdb : ActiveUnique db.postingRules) (as : List (Action RuleRequest))
    (documentType : DocType) (feeTypeId : Option ℕ) :
    ∃ choice, Determined (run ruleEditing.step (.idle db) as).db documentType feeTypeId choice := by
  have hmeets : Meets ruleEditing.step (Protocol.Admits fun _ _ _ => True) (.idle db) as :=
    meets_of_forall_mem fun s a _ => by
      cases a with
      | advance id => exact fun _ _ => trivial
      | start | abandon => trivial
  exact determined_of_activeUnique (ruleEditing_rules.run (sound_idle _ _ hdb) hmeets).db documentType feeTypeId

/-- A rule from account 1100 to account 4010. -/
def invoiceRule (priority : Field ℤ) : PostingRulePayload where
  documentType := .value "customer_invoice"
  feeTypeId := .absent
  debitAccount := .value "1100"
  creditAccount := .value "4010"
  taxAccount := .absent
  status := .absent
  priority := priority
  description := .absent

/-- Two rules of one priority, checked before either is flushed; the second flush waits for the first
commit, and its request is refused. A third rule outranks the first until it is deactivated. -/
def crossedRules : List (Action RuleRequest) :=
  [.start (.create (invoiceRule .blank)), .start (.create (invoiceRule (.value 0))), .advance 1, .advance 2,
    .advance 1, .advance 2, .advance 1, .advance 2, .advance 1, .advance 2,
    .start (.create (invoiceRule (.value 5))), .advance 3, .advance 3, .advance 3, .advance 3,
    .start (.changeStatus 2 "inactive"), .advance 4, .advance 4, .advance 4, .advance 4, .advance 4]

theorem resolution_never_arbitrary_crossed :
    ∃ choice, Determined (run ruleEditing.step (.idle (Db.fresh usd)) crossedRules).db .customerInvoice none choice :=
  resolution_never_arbitrary (fun i j r s k hi => by cases hi) crossedRules .customerInvoice none

example : (run ruleEditing.step (.idle (Db.fresh usd)) crossedRules).db.postingRules.rows.map
    (fun r => (r.1, r.2.priority, r.2.active)) = [(1, 0, true), (2, 5, false)] := by
  decide +kernel

end LcsSystem
