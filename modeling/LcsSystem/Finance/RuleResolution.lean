import LcsSystem.Finance.PostingRules

/-!
# Which rule a scope resolves to

`Chooses` says what resolution is for: the strictly highest active rule of the exact scope, else the one
of the document default, else the account codes of `DEFAULT_ACCOUNTS`. Under `ActiveUnique`, what the
partial unique index `uq_posting_rules_active_priority` enforces, there is exactly one choice and
`selectRule` finds it, although it only ever reads two rows of a tier.
-/

namespace LcsSystem
open Relational Checks

/-! ## The index -/

/-- The entry of a rule in the partial unique index: `(document_type, COALESCE(fee_type_id, 0), priority)`
of an active rule. -/
def PostingRule.indexKey (r : PostingRule) : Option (DocType × ℕ × ℤ) :=
  if r.active then some (r.documentType, r.feeTypeId.getD 0, r.priority) else none

def ActiveUnique (rules : Table PostingRule) : Prop :=
  ∀ i j r s k, rules.get? i = some r → rules.get? j = some s → r.indexKey = some k → s.indexKey = some k → i = j

/-! ## The choice -/

/-- An active rule of the scope; `none` is the document default. -/
def PostingRule.InScope (r : PostingRule) (documentType : DocType) (feeTypeId : Option ℕ) : Prop :=
  r.documentType = documentType ∧ r.feeTypeId = feeTypeId ∧ r.active = true

/-- The active rule of the scope with a higher priority than every other one. -/
structure IsTop (rules : Table PostingRule) (documentType : DocType) (feeTypeId : Option ℕ) (r : ℕ × PostingRule) :
    Prop where
  stored : rules.get? r.1 = some r.2
  scope : r.2.InScope documentType feeTypeId
  highest : ∀ id s, rules.get? id = some s → s.InScope documentType feeTypeId → id ≠ r.1 → s.priority < r.2.priority

def NoneInScope (rules : Table PostingRule) (documentType : DocType) (feeTypeId : Option ℕ) : Prop :=
  ∀ id s, rules.get? id = some s → ¬s.InScope documentType feeTypeId

inductive Chooses (rules : Table PostingRule) (documentType : DocType) : Option ℕ → Option (ℕ × PostingRule) → Prop
  | exact {fee : ℕ} {r : ℕ × PostingRule} (top : IsTop rules documentType (some fee) r) :
      Chooses rules documentType (some fee) (some r)
  | documentDefault {feeTypeId : Option ℕ} {r : ℕ × PostingRule}
      (noExact : ∀ fee, feeTypeId = some fee → NoneInScope rules documentType (some fee))
      (top : IsTop rules documentType none r) : Chooses rules documentType feeTypeId (some r)
  | legacy {feeTypeId : Option ℕ} (noExact : ∀ fee, feeTypeId = some fee → NoneInScope rules documentType (some fee))
      (noDefault : NoneInScope rules documentType none) : Chooses rules documentType feeTypeId none

theorem PostingRule.InScope.indexKey {r : PostingRule} {documentType : DocType} {feeTypeId : Option ℕ}
    (h : r.InScope documentType feeTypeId) : r.indexKey = some (documentType, feeTypeId.getD 0, r.priority) := by
  obtain ⟨rfl, rfl, hactive⟩ := h
  simp [PostingRule.indexKey, hactive]

theorem IsTop.unique {rules : Table PostingRule} {documentType : DocType} {feeTypeId : Option ℕ}
    {r s : ℕ × PostingRule} (hr : IsTop rules documentType feeTypeId r) (hs : IsTop rules documentType feeTypeId s) :
    r = s := by
  by_cases hid : r.1 = s.1
  · have hsame := hs.stored
    rw [← hid, hr.stored, Option.some.injEq] at hsame
    exact Prod.ext hid hsame
  · have h₁ := hs.highest r.1 r.2 hr.stored hr.scope hid
    have h₂ := hr.highest s.1 s.2 hs.stored hs.scope (Ne.symm hid)
    exact absurd h₁ h₂.not_gt

theorem IsTop.not_noneInScope {rules : Table PostingRule} {documentType : DocType} {feeTypeId : Option ℕ}
    {r : ℕ × PostingRule} (hr : IsTop rules documentType feeTypeId r) :
    ¬NoneInScope rules documentType feeTypeId :=
  fun hnone => hnone r.1 r.2 hr.stored hr.scope

theorem Chooses.unique {rules : Table PostingRule} {documentType : DocType} {feeTypeId : Option ℕ}
    {a b : Option (ℕ × PostingRule)} (ha : Chooses rules documentType feeTypeId a)
    (hb : Chooses rules documentType feeTypeId b) : a = b := by
  cases ha with
  | exact top =>
    cases hb with
    | exact top' => rw [top.unique top']
    | documentDefault noExact => exact absurd (noExact _ rfl) top.not_noneInScope
    | legacy noExact => exact absurd (noExact _ rfl) top.not_noneInScope
  | documentDefault noExact top =>
    cases hb with
    | exact top' => exact absurd (noExact _ rfl) top'.not_noneInScope
    | documentDefault _ top' => rw [top.unique top']
    | legacy _ noDefault => exact absurd noDefault top.not_noneInScope
  | legacy noExact noDefault =>
    cases hb with
    | exact top' => exact absurd (noExact _ rfl) top'.not_noneInScope
    | documentDefault _ top' => exact absurd noDefault top'.not_noneInScope
    | legacy => rfl

/-! ## Keys and order of the rows do not matter -/

section
variable {rules rules' : Table PostingRule} {documentType : DocType} {feeTypeId : Option ℕ}

theorem NoneInScope.of_values (h : ∀ r, r ∈ rules.values ↔ r ∈ rules'.values)
    (hnone : NoneInScope rules documentType feeTypeId) : NoneInScope rules' documentType feeTypeId := by
  intro id s hs hscope
  obtain ⟨i, hi⟩ := Table.mem_values.1 ((h s).2 (Table.mem_values.2 ⟨id, hs⟩))
  exact hnone i s hi hscope

theorem IsTop.value_eq (h : ∀ r, r ∈ rules.values ↔ r ∈ rules'.values) {r r' : ℕ × PostingRule}
    (hr : IsTop rules documentType feeTypeId r) (hr' : IsTop rules' documentType feeTypeId r') : r.2 = r'.2 := by
  obtain ⟨i, hi⟩ := Table.mem_values.1 ((h r'.2).2 (Table.mem_values.2 ⟨r'.1, hr'.stored⟩))
  obtain ⟨j, hj⟩ := Table.mem_values.1 ((h r.2).1 (Table.mem_values.2 ⟨r.1, hr.stored⟩))
  by_cases hir : i = r.1
  · rw [hir, hr.stored, Option.some.injEq] at hi
    exact hi
  · by_cases hjr : j = r'.1
    · rw [hjr, hr'.stored, Option.some.injEq] at hj
      exact hj.symm
    · have h₁ := hr.highest i r'.2 hi hr'.scope hir
      have h₂ := hr'.highest j r.2 hj hr.scope hjr
      exact absurd h₁ h₂.not_gt

theorem Chooses.value_eq (h : ∀ r, r ∈ rules.values ↔ r ∈ rules'.values) {a b : Option (ℕ × PostingRule)}
    (ha : Chooses rules documentType feeTypeId a) (hb : Chooses rules' documentType feeTypeId b) :
    a.map Prod.snd = b.map Prod.snd := by
  cases ha with
  | exact top =>
    cases hb with
    | exact top' => exact congrArg some (top.value_eq h top')
    | documentDefault noExact => exact absurd ((noExact _ rfl).of_values fun r => (h r).symm) top.not_noneInScope
    | legacy noExact => exact absurd ((noExact _ rfl).of_values fun r => (h r).symm) top.not_noneInScope
  | documentDefault noExact top =>
    cases hb with
    | exact top' => exact absurd ((noExact _ rfl).of_values h) top'.not_noneInScope
    | documentDefault _ top' => exact congrArg some (top.value_eq h top')
    | legacy _ noDefault => exact absurd (noDefault.of_values fun r => (h r).symm) top.not_noneInScope
  | legacy noExact noDefault =>
    cases hb with
    | exact top' => exact absurd ((noExact _ rfl).of_values h) top'.not_noneInScope
    | documentDefault _ top' => exact absurd (noDefault.of_values h) top'.not_noneInScope
    | legacy => rfl

end

/-! ## The resolver -/

instance : Std.Total ruleOrder where
  total a b := by
    unfold ruleOrder
    rcases lt_trichotomy a.2.priority b.2.priority with h | h | h
    · exact .inr (.inl h)
    · rcases le_total a.1 b.1 with hid | hid
      · exact .inl (.inr ⟨h, hid⟩)
      · exact .inr (.inr ⟨h.symm, hid⟩)
    · exact .inl (.inl h)

instance : IsTrans (ℕ × PostingRule) ruleOrder where
  trans a b c hab hbc := by
    unfold ruleOrder at *
    omega

/-- **A tier** is its top rule, or empty; with the index it is never ambiguous. -/
theorem tier_spec {db : Db} (hunique : ActiveUnique db.postingRules) (documentType : DocType) (feeTypeId : Option ℕ) :
    (∃ r, tier db documentType feeTypeId = .ok (some r) ∧ IsTop db.postingRules documentType feeTypeId r) ∨
      tier db documentType feeTypeId = .ok none ∧ NoneInScope db.postingRules documentType feeTypeId := by
  unfold tier
  generalize hrules : db.postingRules.rows.filter (fun r =>
    r.2.documentType == documentType && r.2.feeTypeId == feeTypeId && r.2.active) = rules
  have hmem (r : ℕ × PostingRule) : r ∈ rules ↔
      db.postingRules.get? r.1 = some r.2 ∧ r.2.InScope documentType feeTypeId := by
    rw [← hrules, List.mem_filter, Table.get?_eq_some]
    simp [PostingRule.InScope, and_assoc]
  have hsorted : (rules.insertionSort ruleOrder).Pairwise ruleOrder := List.pairwise_insertionSort _ _
  have hperm := List.perm_insertionSort ruleOrder rules
  have hnodup : ((rules.insertionSort ruleOrder).map Prod.fst).Nodup := by
    rw [(hperm.map Prod.fst).nodup_iff, ← hrules]
    exact db.postingRules.nodup.sublist (List.filter_sublist.map _)
  cases hsort : rules.insertionSort ruleOrder with
  | nil =>
    right
    rw [hsort] at hperm
    refine ⟨by simp only [hsort, List.take_nil], fun id s hs hscope => ?_⟩
    have hin := (hmem (id, s)).2 ⟨hs, hscope⟩
    rw [← List.Perm.nil_eq hperm] at hin
    cases hin
  | cons top rest =>
    rw [hsort] at hsorted hperm hnodup
    rw [List.map_cons, List.nodup_cons] at hnodup
    have htop := (hmem top).1 (hperm.mem_iff.1 List.mem_cons_self)
    -- The index leaves no second rule with the priority of the first.
    have hlower : ∀ s ∈ rest, s.2.priority < top.2.priority := by
      intro s hs
      have hs' := (hmem s).1 (hperm.mem_iff.1 (List.mem_cons_of_mem _ hs))
      rcases (List.pairwise_cons.1 hsorted).1 s hs with hlt | ⟨heq, -⟩
      · exact hlt
      · have hid := hunique top.1 s.1 top.2 s.2 _ htop.1 hs'.1 htop.2.indexKey (by rw [hs'.2.indexKey, heq])
        exact absurd (List.mem_map.2 ⟨s, hs, hid.symm⟩) hnodup.1
    left
    refine ⟨top, ?_, htop.1, htop.2, fun id s hs hscope hne => ?_⟩
    · have hcheck : ∀ s ∈ rest.take 1, s.2.priority ≠ top.2.priority :=
        fun s hs => (hlower s (List.mem_of_mem_take hs)).ne
      simp only [hsort, List.take_succ_cons, check_pos hcheck, ok_bind]
      rfl
    · have hin := hperm.mem_iff.2 ((hmem (id, s)).2 ⟨hs, hscope⟩)
      rcases List.mem_cons.1 hin with heq | hin
      · exact absurd (congrArg Prod.fst heq) hne
      · exact hlower _ hin

/-- **Selection** makes the choice. -/
theorem selectRule_spec {db : Db} (hunique : ActiveUnique db.postingRules) (documentType : DocType)
    (feeTypeId : Option ℕ) :
    ∃ choice, selectRule db documentType feeTypeId = .ok choice ∧ Chooses db.postingRules documentType feeTypeId choice := by
  have hdefault (noExact : ∀ fee, feeTypeId = some fee → NoneInScope db.postingRules documentType (some fee)) :
      ∃ choice, tier db documentType none = .ok choice ∧ Chooses db.postingRules documentType feeTypeId choice := by
    rcases tier_spec hunique documentType none with ⟨r, hr, top⟩ | ⟨hr, hnone⟩
    · exact ⟨_, hr, .documentDefault noExact top⟩
    · exact ⟨_, hr, .legacy noExact hnone⟩
  cases feeTypeId with
  | none => exact hdefault fun _ h => nomatch h
  | some fee =>
    rcases tier_spec hunique documentType (some fee) with ⟨r, hr, top⟩ | ⟨hr, hnone⟩
    · exact ⟨some r, by simp only [selectRule, hr]; rfl, .exact top⟩
    · obtain ⟨choice, hchoice, hchooses⟩ := hdefault fun fee' h => by
        cases h
        exact hnone
      exact ⟨choice, by simp only [selectRule, hr]; exact hchoice, hchooses⟩

/-- The accounts of a choice. -/
def accountsOf (db : Db) (documentType : DocType) (labelDebit labelCredit : String) :
    Option (ℕ × PostingRule) → Result PostingRuleAccounts
  | none => legacyAccounts db documentType labelDebit labelCredit
  | some (ruleId, rule) => do
    let debit ← validatePostable (accountById db rule.debitAccountId) labelDebit none
    let credit ← validatePostable (accountById db rule.creditAccountId) labelCredit none
    let tax ← match rule.taxAccountId with
      | some id => some <$> validatePostable (accountById db id) "tax" none
      | none => pure none
    return ⟨debit, credit, tax, if rule.feeTypeId.isSome then .exact else .documentDefault, some ruleId,
      some rule.priority⟩

theorem resolve_eq (db : Db) (documentType : DocType) (feeTypeId : Option ℕ) (labelDebit labelCredit : String) :
    resolve db documentType feeTypeId labelDebit labelCredit =
      selectRule db documentType feeTypeId >>= accountsOf db documentType labelDebit labelCredit := rfl

/-! ## Refusals -/

theorem validatePostable_ne_conflict {account : Option Account} {label : String} {field : Option String}
    {code message : String} {fieldErrors : List (String × String)} :
    validatePostable account label field ≠ .error (.conflict code message fieldErrors) := by
  intro h
  cases account with
  | none => cases h
  | some a =>
    simp only [validatePostable, bind_eq_error, check_eq_error] at h
    rcases h with ⟨-, h⟩ | ⟨_, -, ⟨-, h⟩ | ⟨_, -, h⟩⟩ <;> cases h

/-- An account is refused as invalid, never as a conflict. -/
theorem accountsOf_ne_conflict (db : Db) (documentType : DocType) (labelDebit labelCredit : String)
    (choice : Option (ℕ × PostingRule)) (code message : String) (fieldErrors : List (String × String)) :
    accountsOf db documentType labelDebit labelCredit choice ≠ .error (.conflict code message fieldErrors) := by
  intro h
  cases choice with
  | none =>
    simp only [accountsOf, legacyAccounts, bind_eq_error] at h
    rcases h with h | ⟨_, -, h | ⟨_, -, h⟩⟩
    · exact validatePostable_ne_conflict h
    · exact validatePostable_ne_conflict h
    · cases h
  | some rule =>
    simp only [accountsOf, bind_eq_error] at h
    rcases h with h | ⟨_, -, h | ⟨_, -, h⟩⟩
    · exact validatePostable_ne_conflict h
    · exact validatePostable_ne_conflict h
    · split at h
      · simp only [bind_eq_error, map_eq_error] at h
        rcases h with h | ⟨_, -, h⟩
        · exact validatePostable_ne_conflict h
        · cases h
      · cases h

end LcsSystem
