import LcsSystem.Finance.InvoiceWrites
import LcsSystem.Finance.SavedDocuments
import LcsSystem.Lib.Transition

/-!
# The conversion of a draft

A draft stores its currency, the rate, the base currency and four amounts twice. `Converted` is the relation
between them that `save_document` and `create_invoice_from_charge` establish; `run_converted` keeps it while
the default currency changes between calls. Two kinds of drafts fall outside of it: invoices of a service order,
whose conversion columns stay unset until they are saved, and drafts that were updated without a currency or a
rate after the default currency had become their own (`Drafting.overlooked`).
-/

namespace LcsSystem
open Calendar Relational DecimalArith Checks Transition

/-! ## The inputs of a conversion -/

theorem scaled_of_normalizeRate {q rate : ℚ} (h : normalizeRate q = .ok rate) : Scaled 8 rate := by
  obtain ⟨-, -, -, rfl⟩ := normalizeRate_eq_ok.1 h
  exact scaled_roundHalfUp 8 q

/-- The rate of a conversion is positive and the column holds it as it is. -/
theorem rate_of_documentCurrencyInputs {db : Db} {sent stored : Option ℚ} {text : String} {base base' : CurrencyCode}
    {onDate : Date} {currency : CurrencyCode} {rate : ℚ} {precision : ℕ}
    (h : documentCurrencyInputs db sent text base onDate stored = .ok (currency, rate, base', precision)) :
    0 < rate ∧ Scaled 8 rate := by
  obtain ⟨-, -, -, ⟨-, rfl⟩ | ⟨-, q, hrate, -⟩⟩ := documentCurrencyInputs_spec h
  · exact ⟨one_pos, by decide +kernel⟩
  · exact ⟨normalizeRate_pos hrate, scaled_of_normalizeRate hrate⟩

/-! ## Converted documents -/

/-- The two columns of one amount: an exact amount, and its conversion. -/
def ConvertsTo (rate : ℚ) (precision : ℕ) (stored base : Money) : Prop :=
  ∃ exact, storeMoney exact = .ok stored ∧ storeMoney (convertToBase exact rate precision) = .ok base

structure ConvertedAmounts (rate : ℚ) (precision : ℕ) (amounts baseAmounts : Amounts) : Prop where
  subtotal : ConvertsTo rate precision amounts.subtotal baseAmounts.subtotal
  discount : ConvertsTo rate precision amounts.discount baseAmounts.discount
  tax : ConvertsTo rate precision amounts.tax baseAmounts.tax
  total : ConvertsTo rate precision amounts.total baseAmounts.total

theorem TotalsOf.converted {db : Db} {p : DocumentPayload} {lines : List LinePayload} {rate : ℚ} {precision : ℕ}
    {amounts baseAmounts : Amounts} {rows : List DocumentLine}
    (t : TotalsOf db p lines rate precision amounts baseAmounts rows) :
    ConvertedAmounts rate precision amounts baseAmounts := by
  have hamounts := t.amounts_ok
  have hbase := t.base_ok
  simp only [ExactAmounts.toRow, ExactAmounts.toBaseRow, bind_eq_ok, pure_eq_ok] at hamounts hbase
  obtain ⟨_, hs, _, hd, _, ht, _, htotal, rfl⟩ := hamounts
  obtain ⟨_, hs', _, hd', _, ht', _, htotal', rfl⟩ := hbase
  exact ⟨⟨_, hs, hs'⟩, ⟨_, hd, hd'⟩, ⟨_, ht, ht'⟩, ⟨_, htotal, htotal'⟩⟩

theorem storeMoney_val (m : Money) : storeMoney m.val = .ok m := store_eq_ok.2 (Numeric.store?_val m)

theorem Amounts.converted {amounts baseAmounts : Amounts} {rate : ℚ} {precision : ℕ}
    (h : amounts.toBaseRow rate precision = .ok baseAmounts) : ConvertedAmounts rate precision amounts baseAmounts := by
  simp only [Amounts.toBaseRow, bind_eq_ok, pure_eq_ok] at h
  obtain ⟨_, hs, _, hd, _, ht, _, htotal, rfl⟩ := h
  exact ⟨⟨_, storeMoney_val _, hs⟩, ⟨_, storeMoney_val _, hd⟩, ⟨_, storeMoney_val _, ht⟩, ⟨_, storeMoney_val _, htotal⟩⟩

/-- The seven conversion columns agree. -/
structure Converted (db : Db) (d : Document) : Prop where
  base : ∃ base, d.baseCurrencyCode = some base ∧ (d.currencyCode = base → d.exchangeRate.val = 1)
  rate_pos : 0 < d.exchangeRate.val
  amounts : ConvertedAmounts d.exchangeRate.val (precisionOf db d.currencyCode) d.amounts d.baseAmounts

/-- An invoice of a service order as it was created: no base currency, rate 1. -/
structure Unconverted (db : Db) (id : ℕ) (d : Document) : Prop where
  base : d.baseCurrencyCode = none
  rate : d.exchangeRate.val = 1
  source : ∃ source ∈ db.sources.values, source.financialDocumentId = id ∧ source.sourceType = .serviceOrder

/-! ## Saving -/

/-- The update is silent on the conversion, and the default currency has become the draft's own. -/
def overlooksRate (db : Db) (p : DocumentPayload) (d : Document) : Bool :=
  !p.sendsConversion && d.currencyCode == db.defaultCurrency &&
    d.baseCurrencyCode.any fun base => base != db.defaultCurrency

section
variable {env : Env} {db : Db} {p : DocumentPayload}

namespace DocumentSave

theorem storedRate_val (s : DocumentSave env db p) : s.storedRate.val = s.rate := by
  rw [val_of_store s.rate_ok, roundHalfUp_of_scaled (rate_of_documentCurrencyInputs s.currency_ok).2]

theorem base_eq (s : DocumentSave env db p) : s.base = db.defaultCurrency :=
  (documentCurrencyInputs_spec s.currency_ok).2.1

/-- The columns that a save computes agree. -/
theorem converted (s : DocumentSave env db p) {header : Document} (hcurrency : header.currencyCode = s.currency)
    (hrate : header.exchangeRate = s.storedRate) (hbase : header.baseCurrencyCode = some s.base) :
    Converted db (s.document header) := by
  obtain ⟨-, hb, hprecision, hcase⟩ := documentCurrencyInputs_spec s.currency_ok
  obtain ⟨t⟩ := documentTotals_spec s.totals_ok
  have hval : header.exchangeRate.val = s.rate := by rw [hrate, s.storedRate_val]
  refine ⟨⟨s.base, hbase, fun heq => ?_⟩, ?_, ?_⟩
  · have hsame : s.currency = s.base := hcurrency.symm.trans heq
    rcases hcase with ⟨-, hone⟩ | ⟨hne, -⟩
    · exact hval.trans hone
    · exact absurd (hsame.trans hb) hne
  · exact hval ▸ (rate_of_documentCurrencyInputs s.currency_ok).1
  · have hconverted := t.converted
    rw [hprecision, ← hval, ← hcurrency] at hconverted
    exact hconverted

/-- A create. -/
theorem Created.converted {s : DocumentSave env db p} {db' : Db} {id : ℕ} {header : Document}
    (h : s.Created db' id header) : Converted db (s.document header) := by
  obtain ⟨-, -, sequences, hheader, -⟩ := h
  simp only [newHeader, bind_eq_ok, pure_eq_ok] at hheader
  obtain ⟨_, -, _, -, hheader⟩ := hheader
  cases hheader
  exact s.converted rfl rfl rfl

/-- An update that names a currency or a rate writes both. -/
theorem Updated.converted_of_sends {s : DocumentSave env db p} {db' : Db} {id : ℕ} {d header : Document}
    (h : s.Updated db' id d header) (hsends : p.sendsConversion = true) : Converted db (s.document header) := by
  obtain ⟨-, hheader, -⟩ := h
  simp only [updatedHeader, bind_eq_ok, check_eq_ok, pure_eq_ok] at hheader
  obtain ⟨_, -, _, -, rfl⟩ := hheader
  exact s.converted (by simp [hsends]) (by simp [hsends]) rfl

/-- A silent update keeps the currency and the rate; it converts with 1 when the currency is the base currency
now. -/
theorem Updated.converted_of_silent {s : DocumentSave env db p} {db' : Db} {id : ℕ} {d header : Document}
    (h : s.Updated db' id d header) (hsilent : p.sendsConversion = false)
    (hold : Converted db d ∨ Unconverted db id d) (hnoted : overlooksRate db p d = false) :
    Converted db (s.document header) := by
  obtain ⟨hstored, hheader, -⟩ := h
  simp only [updatedHeader, bind_eq_ok, check_eq_ok, pure_eq_ok] at hheader
  obtain ⟨_, -, _, -, rfl⟩ := hheader
  have hnone : p.currency.text.get? = none ∧ p.exchangeRate.get? = none := by
    simpa [DocumentPayload.sendsConversion] using hsilent
  have hinputs := s.currency_ok
  simp only [DocumentPayload.currencyText, hnone.1, hnone.2, hstored, Option.getD_none, Option.map_some] at hinputs
  obtain ⟨htext, hb, -, hcase⟩ := documentCurrencyInputs_spec hinputs
  rw [CurrencyCode.ofText?_code, Option.some.injEq] at htext
  have hrate : d.exchangeRate.val = s.rate := by
    rcases hcase with ⟨hsame, hone⟩ | ⟨-, q, hq, hgiven | ⟨hgiven, -⟩⟩
    · rw [hone]
      rcases hold with hconverted | hunconverted
      · obtain ⟨base, hbase, hrate⟩ := hconverted.base
        refine hrate ?_
        by_contra hne
        have hchanged : base ≠ db.defaultCurrency := fun heq => hne (htext.trans (hsame.trans heq.symm))
        simp [overlooksRate, hsilent, hbase, hchanged, htext.trans hsame] at hnoted
      · exact hunconverted.rate
    · have hstoredRate : q = d.exchangeRate.val := by simpa using hgiven.symm
      obtain ⟨-, -, -, hround⟩ := normalizeRate_eq_ok.1 hq
      rw [hround, hstoredRate, Numeric.roundHalfUp_val]
    · simp at hgiven
  refine s.converted (by simpa [hsilent] using htext) ?_ rfl
  refine Numeric.ext ?_
  simpa [hsilent, s.storedRate_val] using hrate

end DocumentSave
end

/-! ## Generated invoices -/

/-- `db'` is `db` with one document more; sources are only added. -/
structure DocumentAdded (db db' : Db) (d : Document) : Prop where
  documents : db'.documents = db.documents.insert d
  currencies : db'.currencies = db.currencies
  sources : ∀ source ∈ db.sources.values, source ∈ db'.sources.values

theorem createInvoiceFromCharge_spec {env : Env} {db db' : Db} {chargeId id : ℕ}
    (h : createInvoiceFromCharge env db chargeId = .ok (db', id)) :
    db' = db ∨ ∃ d, DocumentAdded db db' d ∧ Converted db d := by
  simp only [createInvoiceFromCharge, bind_eq_ok] at h
  obtain ⟨charge, -, _, -, h⟩ := h
  split at h
  · cases h
    exact .inl rfl
  · simp only [writeChargeInvoice, bind_eq_ok, pure_eq_ok] at h
    obtain ⟨⟨currency, rate, base, precision⟩, hinputs, storedRate, hstored, baseAmounts, hbase, _, -, h⟩ := h
    cases h
    obtain ⟨-, hb, hprecision, hcase⟩ := documentCurrencyInputs_spec hinputs
    obtain ⟨hpos, hscaled⟩ := rate_of_documentCurrencyInputs hinputs
    have hval : storedRate.val = rate := by rw [val_of_store hstored, roundHalfUp_of_scaled hscaled]
    refine .inr ⟨_, ⟨rfl, rfl, fun source hs => ?_⟩, ⟨base, rfl, fun heq => ?_⟩, hval ▸ hpos, ?_⟩
    · simp [hs]
    · rcases hcase with ⟨-, hone⟩ | ⟨hne, -⟩
      · exact hval.trans hone
      · exact absurd (Eq.trans heq hb) hne
    · have hconverted := Amounts.converted hbase
      rw [hprecision, ← hval] at hconverted
      exact hconverted


theorem createInvoiceFromServiceOrder_spec {env : Env} {db db' : Db} {orderId id : ℕ}
    (h : createInvoiceFromServiceOrder env db orderId = .ok (db', id)) :
    db' = db ∨ ∃ d, DocumentAdded db db' d ∧ Unconverted db' db.documents.nextId d := by
  simp only [createInvoiceFromServiceOrder, bind_eq_ok] at h
  obtain ⟨order, -, h⟩ := h
  split at h
  · cases h
    exact .inl rfl
  · simp only [writeOrderInvoice, bind_eq_ok, pure_eq_ok] at h
    obtain ⟨_, -, _, -, subtotal, -, discount, -, tax, -, total, -, _, -, h⟩ := h
    cases h
    refine .inr ⟨_, ⟨rfl, rfl, fun source hs => ?_⟩, rfl, rfl, ?_⟩
    · simp [orderSources, values_foldl_insert, hs]
    · exact ⟨⟨db.documents.nextId, .serviceOrder, orderId⟩, by simp [orderSources], rfl, rfl⟩

/-! ## Runs -/

inductive ConversionAction
  | save (env : Env) (p : DocumentPayload)
  | invoiceCharge (env : Env) (chargeId : ℕ)
  | invoiceServiceOrder (env : Env) (orderId : ℕ)
  | setDefaultCurrency (currency : CurrencyCode)

/-- The database, and the documents whose currency became their base currency under a silent update. -/
structure Drafting where
  db : Db
  overlooked : List ℕ

/-- A save that names a currency or a rate settles the document again. -/
def Drafting.note (s : Drafting) (p : DocumentPayload) : List ℕ :=
  match storedDocument s.db p with
  | none => s.overlooked
  | some (id, d) =>
    if p.sendsConversion then s.overlooked.filter fun i => i != id
    else if overlooksRate s.db p d then id :: s.overlooked
    else s.overlooked

def Drafting.keepDb (s : Drafting) : Result (Db × ℕ) → Drafting
  | .ok (db, _) => { s with db := db }
  | .error _ => s

def conversionStep (s : Drafting) : ConversionAction → Drafting
  | .save env p =>
    match saveDocument env s.db p with
    | .ok (db, _) => ⟨db, s.note p⟩
    | .error _ => s
  | .invoiceCharge env chargeId => s.keepDb (createInvoiceFromCharge env s.db chargeId)
  | .invoiceServiceOrder env orderId => s.keepDb (createInvoiceFromServiceOrder env s.db orderId)
  | .setDefaultCurrency currency => { s with db := { s.db with defaultCurrency := currency } }

/-- Every document is converted, or an unconverted invoice of a service order, or was overlooked. -/
def ConversionKept (s : Drafting) : Prop :=
  ∀ id d, s.db.documents.get? id = some d → id ∉ s.overlooked → Converted s.db d ∨ Unconverted s.db id d

theorem Converted.of_currencies {db db' : Db} {d : Document} (h : Converted db d)
    (hcurrencies : db'.currencies = db.currencies) : Converted db' d := by
  have hprecision : precisionOf db' d.currencyCode = precisionOf db d.currencyCode := by
    simp [precisionOf, currencyRow, hcurrencies]
  exact ⟨h.base, h.rate_pos, hprecision ▸ h.amounts⟩

theorem Unconverted.of_sources {db db' : Db} {id : ℕ} {d : Document} (h : Unconverted db id d)
    (hsources : ∀ source ∈ db.sources.values, source ∈ db'.sources.values) : Unconverted db' id d := by
  obtain ⟨source, hmem, hsource⟩ := h.source
  exact ⟨h.base, h.rate, source, hsources source hmem, hsource⟩

/-- A new document that is converted, or an unconverted invoice, keeps the invariant. -/
theorem ConversionKept.add {s : Drafting} (hs : ConversionKept s) {db' : Db} {d : Document}
    (hadded : DocumentAdded s.db db' d) (hnew : Converted s.db d ∨ Unconverted db' s.db.documents.nextId d) :
    ConversionKept { s with db := db' } := by
  intro id d' hd' hnoted
  simp only [hadded.documents, Table.get?_insert] at hd'
  split at hd'
  · next hid =>
    cases hd'
    subst hid
    exact hnew.imp_left fun h => h.of_currencies hadded.currencies
  · exact (hs id d' hd' hnoted).imp (fun h => h.of_currencies hadded.currencies) fun h => h.of_sources hadded.sources

/-- An update settles its document, unless it is noted as overlooked. -/
theorem ConversionKept.update {s : Drafting} (hs : ConversionKept s) {env : Env} {p : DocumentPayload}
    {save : DocumentSave env s.db p} {db' : Db} {id : ℕ} {d header : Document} (h : save.Updated db' id d header) :
    ConversionKept ⟨db', s.note p⟩ := by
  obtain ⟨hstored, hheader, rfl⟩ := h
  have hupdated : save.Updated _ id d header := ⟨hstored, hheader, rfl⟩
  have hd := (storedDocument_eq_some.1 hstored).2
  intro i d' hd' hnoted
  simp only [Table.get?_modify] at hd'
  simp only [Drafting.note, hstored] at hnoted
  by_cases hi : i = id
  · subst hi
    simp only [if_true, hd, Option.map_some, Option.some.injEq] at hd'
    subst hd'
    suffices hconverted : Converted s.db (save.document header) from .inl (hconverted.of_currencies rfl)
    cases hsends : p.sendsConversion with
    | true => exact hupdated.converted_of_sends hsends
    | false =>
      cases hoverlooks : overlooksRate s.db p d with
      | true => simp [hsends, hoverlooks] at hnoted
      | false =>
        simp only [hsends, hoverlooks, Bool.false_eq_true, if_false] at hnoted
        exact hupdated.converted_of_silent hsends (hs i d hd hnoted) hoverlooks
  · simp only [if_neg hi] at hd'
    have hold : i ∉ s.overlooked := by
      intro hmem
      refine hnoted ?_
      split
      · simp [hmem, hi]
      · split
        · exact List.mem_cons_of_mem _ hmem
        · exact hmem
    exact (hs i d' hd' hold).imp (fun h => h.of_currencies rfl) fun h => h.of_sources fun _ h => h

/-- **Step lemma.** -/
theorem conversionStep_kept (s : Drafting) (a : ConversionAction) (hs : ConversionKept s) :
    ConversionKept (conversionStep s a) := by
  cases a with
  | setDefaultCurrency currency =>
    exact fun id d hd hnoted => (hs id d hd hnoted).imp (fun h => h.of_currencies rfl) fun h => h.of_sources fun _ h => h
  | invoiceCharge env chargeId =>
    simp only [conversionStep]
    cases h : createInvoiceFromCharge env s.db chargeId with
    | error e => exact hs
    | ok r =>
      obtain ⟨db', id⟩ := r
      obtain heq | ⟨d, hadded, hconverted⟩ := createInvoiceFromCharge_spec h
      · simpa [Drafting.keepDb, heq] using hs
      · exact hs.add hadded (.inl hconverted)
  | invoiceServiceOrder env orderId =>
    simp only [conversionStep]
    cases h : createInvoiceFromServiceOrder env s.db orderId with
    | error e => exact hs
    | ok r =>
      obtain ⟨db', id⟩ := r
      obtain heq | ⟨d, hadded, hunconverted⟩ := createInvoiceFromServiceOrder_spec h
      · simpa [Drafting.keepDb, heq] using hs
      · exact hs.add hadded (.inr hunconverted)
  | save env p =>
    simp only [conversionStep]
    cases h : saveDocument env s.db p with
    | error e => exact hs
    | ok r =>
      obtain ⟨db', id⟩ := r
      obtain ⟨save, header, hcreated | ⟨d, hupdated⟩⟩ := saveDocument_spec h
      · have hconverted := hcreated.converted
        obtain ⟨hnone, -, sequences, -, hdb⟩ := hcreated
        have hnote : s.note p = s.overlooked := by simp [Drafting.note, hnone]
        have hadded : DocumentAdded s.db db' (save.document header) := by rw [hdb]; exact ⟨rfl, rfl, fun _ h => h⟩
        rw [hnote]
        exact hs.add hadded (.inl hconverted)
      · exact hs.update hupdated

/-- A riel invoice of 20, with the rate that is sent. -/
def rielSale (exchangeRate : ℚ) : DocumentPayload :=
  { DocumentPayload.ofLines .customerInvoice [.priced 2 10] with
    currency := .value "KHR", exchangeRate := .value exchangeRate }

/-- A later save of document 1 that sends its lines only. -/
def silentUpdate : DocumentPayload := { DocumentPayload.ofLines .customerInvoice [.priced 3 10] with id := .value 1 }

/-- A riel invoice is updated twice, the second time after the default currency has changed to euro. -/
def rielUpdates : List ConversionAction :=
  [.save january (rielSale (1 / 4)), .save january silentUpdate, .setDefaultCurrency ⟨"EUR", by decide⟩,
    .save january silentUpdate]

/-- A service order in riel with one charge of 100. -/
def chargedOrder : Db :=
  { Db.fresh usd with
    serviceOrders := .insert .empty ⟨"SO-1", 1, khr, false⟩
    charges := .insert .empty ⟨1, "SC-1", "SERVICE_NOTE", january31, khr, true, ⟨hundred, 0, 0, hundred⟩, none, []⟩ }

end LcsSystem
