import LcsSystem.Finance.DocumentConversion

/-!
# Where the rate of a draft comes from

Over saves of drafts, the log records the rates that clients sent and the approved rates that
`resolve_document_rate` returned, each with the currency of its call. A stored rate is one of them, for the
currency the draft has, as long as every update that moves a draft to another currency than the base sends a
rate (`SwitchSendsRate`): an update without one falls back on the stored rate, whatever currency it was for.
-/

namespace LcsSystem
open Calendar Relational DecimalArith Checks Transition

/-! ## Events -/

inductive RateEvent
  | sent (documentId : ℕ) (currency : CurrencyCode) (rate : ℚ)
  | resolved (documentId : ℕ) (currency base : CurrencyCode) (rate : ℚ)

/-- The event is where the document's rate comes from: sent in a call with this currency, or returned for this
currency and this base. -/
def RateEvent.Gives (documentId : ℕ) (currency base : CurrencyCode) (stored : Rate) : RateEvent → Prop
  | .sent id c rate => id = documentId ∧ c = currency ∧ stored.val = roundHalfUp 8 rate
  | .resolved id c b rate => id = documentId ∧ c = currency ∧ b = base ∧ stored.val = rate

instance (documentId : ℕ) (currency base : CurrencyCode) (stored : Rate) :
    ∀ e : RateEvent, Decidable (e.Gives documentId currency base stored)
  | .sent _ _ _ => inferInstanceAs (Decidable (_ ∧ _))
  | .resolved _ _ _ _ => inferInstanceAs (Decidable (_ ∧ _))

/-- The currency a save ends up with. -/
def DocumentPayload.effectiveCurrency (db : Db) (p : DocumentPayload) : Option CurrencyCode :=
  CurrencyCode.ofText? (p.currencyText db)

/-- What a save of document `id` adds to the log. A stored document never asks for the approved rate. -/
def rateEvent (env : Env) (db : Db) (p : DocumentPayload) (id : ℕ) : Option RateEvent :=
  (p.effectiveCurrency db).bind fun currency =>
    match p.exchangeRate.get?, storedDocument db p with
    | some rate, _ => some (.sent id currency rate)
    | none, some _ => none
    | none, none =>
      match resolveDocumentRate db currency db.defaultCurrency (p.rateDate env db) with
      | .ok (some rate) => some (.resolved id currency db.defaultCurrency rate)
      | _ => none

structure Rating where
  db : Db
  log : List RateEvent

structure SaveCall where
  env : Env
  payload : DocumentPayload

def rateStep (s : Rating) (a : SaveCall) : Rating :=
  match saveDocument a.env s.db a.payload with
  | .ok (db, id) => ⟨db, s.log ++ (rateEvent a.env s.db a.payload id).toList⟩
  | .error _ => s

/-- An accepted update without a rate keeps the draft's currency or moves it to the base currency. -/
def SwitchSendsRate (s : Rating) (a : SaveCall) : Prop :=
  (saveDocument a.env s.db a.payload).isOk = true → ∀ stored ∈ storedDocument s.db a.payload,
    ∀ currency ∈ a.payload.effectiveCurrency s.db,
      a.payload.exchangeRate.get?.isSome ∨ currency = stored.2.currencyCode ∨ currency = s.db.defaultCurrency

instance (s : Rating) (a : SaveCall) : Decidable (SwitchSendsRate s a) := inferInstanceAs (Decidable (_ → _))

/-! ## The invariant -/

/-- Document `id` is based on `base`, and its rate in another currency has a source. -/
def Sourced (base : CurrencyCode) (log : List RateEvent) (id : ℕ) (d : Document) : Prop :=
  d.baseCurrencyCode = some base ∧
    (d.currencyCode ≠ base → ∃ e ∈ log, e.Gives id d.currencyCode base d.exchangeRate)

theorem Sourced.append {base : CurrencyCode} {log : List RateEvent} {id : ℕ} {d : Document}
    (h : Sourced base log id d) (events : List RateEvent) : Sourced base (log ++ events) id d := by
  refine ⟨h.1, fun hne => ?_⟩
  obtain ⟨e, he, hgives⟩ := h.2 hne
  exact ⟨e, List.mem_append_left _ he, hgives⟩

/-- Every document is based on the default currency, and its rate in another currency has a source. -/
def RatesSourced (s : Rating) : Prop :=
  ∀ id d, s.db.documents.get? id = some d → Sourced s.db.defaultCurrency s.log id d

theorem resolveDocumentRate_scaled {db : Db} {currency base : CurrencyCode} {onDate : Date} {q : ℚ}
    (h : resolveDocumentRate db currency base onDate = .ok (some q)) (hne : currency ≠ base) : Scaled 8 q := by
  unfold resolveDocumentRate at h
  rw [if_neg hne] at h
  split at h
  · simp only [map_eq_ok, Option.some.injEq] at h
    obtain ⟨_, hrate, rfl⟩ := h
    exact scaled_of_normalizeRate hrate
  · split at h
    · simp only [map_eq_ok, Option.some.injEq] at h
      obtain ⟨_, hrate, rfl⟩ := h
      exact scaled_of_normalizeRate hrate
    · simp at h

namespace DocumentSave
variable {env : Env} {db db' : Db} {p : DocumentPayload} {id : ℕ} {header : Document}

theorem effectiveCurrency_eq (s : DocumentSave env db p) : p.effectiveCurrency db = some s.currency :=
  (documentCurrencyInputs_spec s.currency_ok).1

/-- A rate that a save computes for another currency than the base: logged, or the stored one. -/
theorem rate_source (s : DocumentSave env db p) (id : ℕ) (hne : s.currency ≠ db.defaultCurrency) :
    (∃ e ∈ rateEvent env db p id, e.Gives id s.currency db.defaultCurrency s.storedRate) ∨
      p.exchangeRate.get? = none ∧ ∃ i d, storedDocument db p = some (i, d) ∧ s.storedRate = d.exchangeRate := by
  obtain ⟨-, -, -, ⟨heq, -⟩ | ⟨-, q, hrate, hsource⟩⟩ := documentCurrencyInputs_spec s.currency_ok
  · exact absurd heq hne
  have heffective := s.effectiveCurrency_eq
  have hval : s.storedRate.val = roundHalfUp 8 q := by
    obtain ⟨-, -, -, hround⟩ := normalizeRate_eq_ok.1 hrate
    rw [s.storedRate_val, hround]
  cases hsent : p.exchangeRate.get? with
  | some rate =>
    obtain rfl : rate = q := by simpa [hsent] using hsource
    exact .inl ⟨.sent id s.currency rate, by simp [rateEvent, heffective, hsent], rfl, rfl, hval⟩
  | none =>
    cases hstored : storedDocument db p with
    | some r =>
      obtain rfl : r.2.exchangeRate.val = q := by simpa [hsent, hstored] using hsource
      exact .inr ⟨rfl, r.1, r.2, rfl, Numeric.ext (hval.trans (Numeric.roundHalfUp_val _))⟩
    | none =>
      have hresolved : resolveDocumentRate db s.currency db.defaultCurrency (p.rateDate env db) = .ok (some q) := by
        simpa [hsent, hstored] using hsource
      refine .inl ⟨.resolved id s.currency db.defaultCurrency q, ?_, rfl, rfl, rfl, ?_⟩
      · simp [rateEvent, heffective, hsent, hstored, hresolved]
      · rw [hval, roundHalfUp_of_scaled (resolveDocumentRate_scaled hresolved hne)]

/-- A row with the currency and the rate of a save is sourced when the save logged where they come from. -/
theorem sourced_of_event (s : DocumentSave env db p) (log : List RateEvent) {d : Document}
    (hbase : d.baseCurrencyCode = some s.base) (hcurrency : d.currencyCode = s.currency)
    (hrate : d.exchangeRate = s.storedRate)
    (h : s.currency ≠ db.defaultCurrency →
      ∃ e ∈ rateEvent env db p id, e.Gives id s.currency db.defaultCurrency s.storedRate) :
    Sourced db.defaultCurrency (log ++ (rateEvent env db p id).toList) id d := by
  refine ⟨by rw [hbase, s.base_eq], fun hne => ?_⟩
  rw [hcurrency] at hne
  obtain ⟨e, he, hgives⟩ := h hne
  exact ⟨e, List.mem_append_right _ (by simpa using he), by rwa [hcurrency, hrate]⟩

theorem Created.sourced {s : DocumentSave env db p} (h : s.Created db' id header) (log : List RateEvent) :
    Sourced db.defaultCurrency (log ++ (rateEvent env db p id).toList) id (s.document header) := by
  obtain ⟨hnone, -, sequences, hheader, -⟩ := h
  simp only [newHeader, bind_eq_ok, pure_eq_ok] at hheader
  obtain ⟨_, -, _, -, hheader⟩ := hheader
  cases hheader
  refine s.sourced_of_event log rfl rfl rfl fun hne => ?_
  rcases s.rate_source id hne with hgives | ⟨-, i, d, hd, -⟩
  · exact hgives
  · rw [hnone] at hd
    cases hd

/-- An update that does not fall back on a rate for another currency. -/
theorem Updated.sourced {s : DocumentSave env db p} {d : Document} (h : s.Updated db' id d header)
    {log : List RateEvent} (hd : Sourced db.defaultCurrency log id d)
    (hswitch : p.exchangeRate.get?.isSome ∨ s.currency = d.currencyCode ∨ s.currency = db.defaultCurrency) :
    Sourced db.defaultCurrency (log ++ (rateEvent env db p id).toList) id (s.document header) := by
  obtain ⟨hstored, hheader, -⟩ := h
  simp only [updatedHeader, bind_eq_ok, check_eq_ok, pure_eq_ok] at hheader
  obtain ⟨_, -, _, -, rfl⟩ := hheader
  have hold := hd.append (rateEvent env db p id).toList
  cases hsends : p.sendsConversion with
  | false =>
    -- Neither column is written.
    refine ⟨congrArg some s.base_eq, fun hne => ?_⟩
    simp only [document, Bool.false_eq_true, if_false] at hne ⊢
    exact hold.2 hne
  | true =>
    by_cases hne : s.currency = db.defaultCurrency
    · exact s.sourced_of_event log rfl (by simp [document]) (by simp [document]) (absurd hne)
    · rcases s.rate_source id hne with hgives | ⟨hunsent, i, d₁, hd₁, hrate⟩
      · exact s.sourced_of_event log rfl (by simp [document]) (by simp [document]) fun _ => hgives
      · -- The stored rate is written again, so the currency must be the one it was for.
        rw [hstored] at hd₁
        cases hd₁
        have hsame : s.currency = d.currencyCode := by
          rcases hswitch with hsent | hsame | hbase
          · simp [hunsent] at hsent
          · exact hsame
          · exact absurd hbase hne
        refine ⟨congrArg some s.base_eq, fun _ => ?_⟩
        simp only [document, if_true, hrate, hsame]
        exact hold.2 (hsame ▸ hne)

end DocumentSave

/-- **Step lemma.** -/
theorem rateStep_sourced (s : Rating) (a : SaveCall) (hs : RatesSourced s) (ha : SwitchSendsRate s a) :
    RatesSourced (rateStep s a) := by
  obtain ⟨env, p⟩ := a
  unfold rateStep
  cases h : saveDocument env s.db p with
  | error e => exact hs
  | ok r =>
    obtain ⟨db', id⟩ := r
    obtain ⟨save, header, hcase⟩ := saveDocument_spec h
    have hsaved : Sourced s.db.defaultCurrency (s.log ++ (rateEvent env s.db p id).toList) id (save.document header) := by
      rcases hcase with hcreated | ⟨d, hupdated⟩
      · exact hcreated.sourced s.log
      · have haccepted : (saveDocument env s.db p).isOk = true := isOk_eq_true.2 ⟨_, h⟩
        have hswitch := ha haccepted (id, d) hupdated.1 save.currency save.effectiveCurrency_eq
        exact hupdated.sourced (hs id d (storedDocument_eq_some.1 hupdated.1).2) hswitch
    intro i d hd
    by_cases hi : i = id
    · subst hi
      obtain rfl : save.document header = d := Option.some.inj ((saveDocument_get? hcase).symm.trans hd)
      rwa [saveDocument_defaultCurrency hcase]
    · rw [saveDocument_defaultCurrency hcase]
      exact (hs i d (saveDocument_get?_of_ne hcase hi ▸ hd)).append _

/-- **Rate provenance.** In every state of a run of saves in which each accepted update that moves a draft to
another currency than the base sends a rate, the rate of a document in another currency than its base was sent in a
call with that currency, or returned for that currency and the base. -/
theorem run_rates {db : Db} (h : db.documents.rows = []) {as : List SaveCall}
    (hm : Meets rateStep SwitchSendsRate ⟨db, []⟩ as) :
    let s := run rateStep ⟨db, []⟩ as
    ∀ id d base, s.db.documents.get? id = some d → d.baseCurrencyCode = some base → d.currencyCode ≠ base →
      ∃ e ∈ s.log, e.Gives id d.currencyCode base d.exchangeRate := by
  intro s id d base hd hbase hne
  have hempty : RatesSourced ⟨db, []⟩ := by
    intro id d hd
    simp [Table.get?, h, Table.find] at hd
  obtain ⟨hdefault, hsource⟩ := (run_invariant_of_meets RatesSourced rateStep_sourced hempty hm) id d hd
  obtain rfl : base = s.db.defaultCurrency := Option.some.inj (hbase.symm.trans hdefault)
  exact hsource hne

/-- A dollar draft, moved to riel with a rate, and saved again without one. -/
def dollarToRiel (exchangeRate : Field ℚ) : List SaveCall :=
  let update := { silentUpdate with currency := .value "KHR", exchangeRate := exchangeRate }
  [⟨january, .ofLines .customerInvoice [.priced 2 10]⟩, ⟨january, update⟩, ⟨january, silentUpdate⟩]

theorem run_rates_dollarToRiel :
    ∃ d, (run rateStep ⟨Db.fresh usd, []⟩ (dollarToRiel (.value (1 / 4)))).db.documents.get? 1 = some d ∧
      ∃ e ∈ (run rateStep ⟨Db.fresh usd, []⟩ (dollarToRiel (.value (1 / 4)))).log,
        e.Gives 1 d.currencyCode usd d.exchangeRate := by
  have hmeets : Meets rateStep SwitchSendsRate ⟨Db.fresh usd, []⟩ (dollarToRiel (.value (1 / 4))) := by decide +kernel
  have hreached : ∃ d ∈ (run rateStep ⟨Db.fresh usd, []⟩ (dollarToRiel (.value (1 / 4)))).db.documents.get? 1,
      d.baseCurrencyCode = some usd ∧ d.currencyCode ≠ usd := by decide +kernel
  obtain ⟨d, hd, hbase, hne⟩ := hreached
  exact ⟨d, hd, run_rates rfl hmeets 1 d usd hd hbase hne⟩

/-- Moved to riel without a rate, the draft keeps the 1 it had in dollars. -/
theorem rate_carried_over :
    ∃ d ∈ (run rateStep ⟨Db.fresh usd, []⟩ (dollarToRiel .absent)).db.documents.get? 1,
      d.currencyCode = khr ∧ d.baseCurrencyCode = some usd ∧ d.exchangeRate.val = 1 ∧
        ∀ e ∈ (run rateStep ⟨Db.fresh usd, []⟩ (dollarToRiel .absent)).log,
          ¬e.Gives 1 d.currencyCode usd d.exchangeRate := by
  decide +kernel

end LcsSystem
