import LcsSystem.Lib.Transactions
import LcsSystem.Quotations.RevisionNumbers

/-!
# Conversions side by side

`convert_revision` as a transaction. It looks for a conversion under its key, then for one of its quotation,
and only then waits for the number of the order; the three unique constraints of `quotation_conversions` are
checked when it writes. A request that they refuse is rolled back and looks for its key once more.

The two reads of `_revision_with_quotation` are one statement, and so are the writes with their commit.
-/

namespace LcsSystem
open Relational Checks Transition Transactions Transactions.Outcome

/-! ## The transactions -/

structure ConversionRequest where
  env : Env
  revisionId : ℕ
  idempotencyKey : Option String

/-- The next statement of a request, with the rows it has read. -/
inductive ConversionTxn
  | readKey (r : ConversionRequest)
  | readRevision (r : ConversionRequest)
  | readPrior (r : ConversionRequest) (quotation : Quotation) (revision : QuotationRevision)
  | lockSequence (r : ConversionRequest) (quotation : Quotation) (revision : QuotationRevision)
  | write (r : ConversionRequest) (quotation : Quotation) (revision : QuotationRevision)
  | replay (r : ConversionRequest)

/-- What a request is answered: an order that it created or not, or none. -/
structure ConversionAnswer where
  idempotencyKey : Option String
  created : Bool
  serviceOrderId : Option ℕ
  deriving DecidableEq

/-- An empty key is none. -/
def usedKey (idempotencyKey : Option String) : Option String := idempotencyKey.filter fun key => key ≠ ""

def ConversionRequest.refused (r : ConversionRequest) : ConversionAnswer := ⟨usedKey r.idempotencyKey, false, none⟩

def ConversionRequest.replayed (r : ConversionRequest) (c : QuotationConversion) : ConversionAnswer :=
  ⟨usedKey r.idempotencyKey, false, some c.serviceOrderId⟩

/-- The answer to the request that made a conversion. -/
def QuotationConversion.answer (c : QuotationConversion) : ConversionAnswer :=
  ⟨usedKey c.idempotencyKey, true, some c.serviceOrderId⟩

/-- The conversion that a request records. -/
def ConversionRequest.conversion (r : ConversionRequest) (orderId : ℕ) : QuotationConversion :=
  ⟨r.revisionId, orderId, r.env.userId, r.idempotencyKey⟩

/-- The request is refused at an error, otherwise `f` follows. -/
def orRefuse {α : Type} (db : QuotationDb) (r : ConversionRequest)
    (f : α → Transactions.Outcome QuotationDb ConversionTxn ConversionAnswer) : Result α →
    Transactions.Outcome QuotationDb ConversionTxn ConversionAnswer
  | .ok a => f a
  | .error _ => .commits db (some r.refused)

section
variable {α : Type} {db : QuotationDb} {r : ConversionRequest} {f : α → Transactions.Outcome QuotationDb ConversionTxn ConversionAnswer}

@[simp] theorem orRefuse_ok (a : α) : orRefuse db r f (.ok a) = f a := rfl

@[simp] theorem orRefuse_error (e : Error) : orRefuse db r f (.error e) = .commits db (some r.refused) := rfl

theorem orRefuse_eq_continues {t : ConversionTxn} {x : Result α} :
    orRefuse db r f x = .continues t ↔ ∃ a, x = .ok a ∧ f a = .continues t := by
  cases x <;> simp

theorem orRefuse_eq_commits {db' : QuotationDb} {event : Option ConversionAnswer} {x : Result α} :
    orRefuse db r f x = .commits db' event ↔ (∃ e, x = .error e ∧ db = db' ∧ some r.refused = event) ∨
      ∃ a, x = .ok a ∧ f a = .commits db' event := by
  cases x <;> simp

end

/-- `_conversion_payload` of a conversion under the key. -/
def answerReplay (db : QuotationDb) (r : ConversionRequest) (c : QuotationConversion) :
    Transactions.Outcome QuotationDb ConversionTxn ConversionAnswer :=
  orRefuse db r (fun _ => .commits db (some (r.replayed c))) (revisionWithQuotation db c.quotationRevisionId)

/-- The revision is in a status to convert, and its quotation is not converted. -/
def checkConvertible (db : QuotationDb) (revision : QuotationRevision) : Result Unit := do
  check ((conversionForQuotation db revision.quotationId).isNone) duplicateConversion
  check (revision.status ∈ [.submitted, .sent, .accepted])
    (.invalidState "Only a submitted revision can be converted to a service order.")

def recordConversion (ordered : QuotationDb) (revisionId quotationId : ℕ) (c : QuotationConversion) : QuotationDb :=
  setQuotationStatus (setRevisionStatus { ordered with conversions := ordered.conversions.insert c }
    revisionId .converted) quotationId .converted

def ConversionTxn.next (db : QuotationDb) (free : ℕ → Bool) :
    ConversionTxn → Transactions.Outcome QuotationDb ConversionTxn ConversionAnswer
  | .readKey r =>
    match conversionByKey db r.idempotencyKey with
    | some c => answerReplay db r c
    | none => .continues (.readRevision r)
  | .readRevision r => orRefuse db r (fun read => .continues (.readPrior r read.1 read.2))
      (revisionWithQuotation db r.revisionId)
  | .readPrior r quotation revision => orRefuse db r (fun _ => .continues (.lockSequence r quotation revision))
      (checkConvertible db revision)
  | .lockSequence r quotation revision => whenFree free r.env.utcYear (.continues (.write r quotation revision))
  | .write r quotation revision => orRefuse db r (fun ordered =>
      if ConversionUnique ordered.1 (r.conversion ordered.2) then
        .commits (recordConversion ordered.1 r.revisionId revision.quotationId (r.conversion ordered.2))
          (some (r.conversion ordered.2).answer)
      else .continues (.replay r))
      (createServiceOrderFromQuotation r.env db quotation (r.revisionId, revision))
  | .replay r =>
    match conversionByKey db r.idempotencyKey with
    | some c => answerReplay db r c
    | none => .commits db (some r.refused)

/-- A key is the year of the order numbers; the log is the answers. -/
def converting : Protocol QuotationDb ConversionRequest ConversionTxn ℕ ConversionAnswer where
  start := .readKey
  locks
    | .write r _ _ => [r.env.utcYear]
    | _ => []
  next := ConversionTxn.next

/-! ## A request that nothing interrupts -/

section
variable {db : QuotationDb} {r : ConversionRequest} {n : ℕ}

theorem alone_replay : converting.alone (n + 1) db (.replay r) = db := by
  cases hkey : conversionByKey db r.idempotencyKey with
  | none => exact alone_commits db (some r.refused) (by simp [converting, ConversionTxn.next, hkey])
  | some c =>
    cases hread : revisionWithQuotation db c.quotationRevisionId with
    | error e => exact alone_commits db (some r.refused) (by
        simp [converting, ConversionTxn.next, hkey, answerReplay, hread])
    | ok read => exact alone_commits db (some (r.replayed c)) (by
        simp [converting, ConversionTxn.next, hkey, answerReplay, hread])

/-- `convert_revision` alone is `convertRevision`. -/
theorem alone_convert (r : ConversionRequest) (db : QuotationDb) : converting.alone 6 db (.readKey r) =
    orKeep db (Prod.fst <$> convertRevision r.env db r.revisionId r.idempotencyKey) := by
  unfold convertRevision
  cases hkey : conversionByKey db r.idempotencyKey with
  | some c =>
    cases hread : revisionWithQuotation db c.quotationRevisionId with
    | error e =>
      rw [alone_commits db (some r.refused) (by
        simp [converting, ConversionTxn.next, hkey, answerReplay, hread])]
      simp [hread, orKeep, bind, Except.bind, Functor.map, Except.map]
    | ok read =>
      rw [alone_commits db (some (r.replayed c)) (by
        simp [converting, ConversionTxn.next, hkey, answerReplay, hread])]
      simp [hread, orKeep, pure, Except.pure, Functor.map, Except.map]
  | none =>
    rw [alone_continues (.readRevision r) (by simp [converting, ConversionTxn.next, hkey])]
    simp only [convertNew]
    cases hread : revisionWithQuotation db r.revisionId with
    | error e =>
      rw [alone_commits db (some r.refused) (by simp [converting, ConversionTxn.next, hread])]
      simp [orKeep, bind, Except.bind, Functor.map, Except.map]
    | ok read =>
      obtain ⟨quotation, revision⟩ := read
      rw [alone_continues (.readPrior r quotation revision) (by
        simp [converting, ConversionTxn.next, hread])]
      by_cases hprior : (conversionForQuotation db revision.quotationId).isNone = true
      · by_cases hstatus : revision.status ∈ [.submitted, .sent, .accepted]
        · have hcheck : checkConvertible db revision = .ok ⟨⟩ := by
            simp only [checkConvertible, check_pos hprior, check_pos hstatus, ok_bind]
          rw [alone_continues (.lockSequence r quotation revision) (by
            simp [converting, ConversionTxn.next, hcheck]),
            alone_continues (.write r quotation revision) (by simp [converting, ConversionTxn.next])]
          simp only [ok_bind, check_pos hprior, check_pos hstatus]
          cases hordered : createServiceOrderFromQuotation r.env db quotation (r.revisionId, revision) with
          | error e =>
            rw [alone_commits db (some r.refused) (by simp [converting, ConversionTxn.next, hordered])]
            simp [orKeep, bind, Except.bind, Functor.map, Except.map]
          | ok ordered =>
            by_cases hunique : ConversionUnique ordered.1 ⟨r.revisionId, ordered.2, r.env.userId, r.idempotencyKey⟩
            · rw [alone_commits _ _ (by
                simp only [converting, ConversionTxn.next, hordered, ConversionRequest.conversion, orRefuse_ok]
                exact if_pos hunique)]
              simp only [ok_bind, check_pos hunique]
              rfl
            · rw [alone_continues (.replay r) (by
                simp [converting, ConversionTxn.next, hordered, ConversionRequest.conversion, hunique]),
                alone_replay]
              simp only [ok_bind, check_neg hunique]
              rfl
        · have hcheck : ∃ e, checkConvertible db revision = .error e := by
            simp only [checkConvertible, check_pos hprior, check_neg hstatus, ok_bind]
            exact ⟨_, rfl⟩
          obtain ⟨e, hcheck⟩ := hcheck
          rw [alone_commits db (some r.refused) (by simp [converting, ConversionTxn.next, hcheck])]
          simp only [ok_bind, check_pos hprior, check_neg hstatus]
          rfl
      · have hcheck : ∃ e, checkConvertible db revision = .error e := by
          simp only [checkConvertible, check_neg hprior]
          exact ⟨_, rfl⟩
        obtain ⟨e, hcheck⟩ := hcheck
        rw [alone_commits db (some r.refused) (by simp [converting, ConversionTxn.next, hcheck])]
        simp only [ok_bind, check_neg hprior]
        rfl

end
/-! ## At most once -/

def quotationOfRevision (db : QuotationDb) (revisionId : ℕ) : Option ℕ :=
  (db.revisions.get? revisionId).map QuotationRevision.quotationId

/-- The property: no quotation has two conversions or two orders. -/
structure ConvertedOnce (db : QuotationDb) : Prop where
  conversion : ∀ i j c d quotationId, db.conversions.get? i = some c → db.conversions.get? j = some d →
    quotationOfRevision db c.quotationRevisionId = some quotationId →
    quotationOfRevision db d.quotationRevisionId = some quotationId → i = j
  order : ∀ i j o p quotationId, db.orders.get? i = some o → db.orders.get? j = some p →
    o.quotationRevisionId.bind (quotationOfRevision db) = some quotationId →
    p.quotationRevisionId.bind (quotationOfRevision db) = some quotationId → i = j

/-- A request that repeats the key of a conversion is answered its order. -/
def Repeats (earlier later : ConversionAnswer) : Prop :=
  earlier.created = true → ∀ key ∈ earlier.idempotencyKey, later.idempotencyKey = some key →
    later = ⟨some key, false, earlier.serviceOrderId⟩

instance : DecidableRel Repeats := fun earlier later =>
  inferInstanceAs (Decidable (_ → ∀ key ∈ earlier.idempotencyKey, _ → later = _))

/-- The foreign keys and the unique key of the conversions; an order of a revision was made by one of them. -/
structure ConversionTables (db : QuotationDb) : Prop where
  linked : ∀ c ∈ db.conversions.values, ∃ q r, revisionWithQuotation db c.quotationRevisionId = .ok (q, r)
  keys : ∀ i j c d key, db.conversions.get? i = some c → db.conversions.get? j = some d →
    c.idempotencyKey = some key → d.idempotencyKey = some key → i = j
  ordered : ∀ id o revisionId, db.orders.get? id = some o → o.quotationRevisionId = some revisionId →
    ∃ c ∈ db.conversions.values, c.quotationRevisionId = revisionId ∧ c.serviceOrderId = id

theorem quotationOfRevision_eq_some {db : QuotationDb} {revisionId quotationId : ℕ} :
    quotationOfRevision db revisionId = some quotationId ↔
      ∃ r, db.revisions.get? revisionId = some r ∧ r.quotationId = quotationId := Option.map_eq_some_iff

theorem conversionForQuotation_eq_none {db : QuotationDb} {quotationId : ℕ} :
    conversionForQuotation db quotationId = none ↔
      ∀ c ∈ db.conversions.values, quotationOfRevision db c.quotationRevisionId ≠ some quotationId := by
  rw [conversionForQuotation, List.find?_eq_none]
  refine forall₂_congr fun c _ => not_congr ?_
  rw [Option.any_eq_true, quotationOfRevision_eq_some]
  simp only [beq_iff_eq]

/-- A conversion that is found has the key, which is not empty. -/
theorem conversionByKey_eq_some {db : QuotationDb} {idempotencyKey : Option String} {c : QuotationConversion}
    (h : conversionByKey db idempotencyKey = some c) : c ∈ db.conversions.values ∧
      ∃ key, usedKey idempotencyKey = some key ∧ c.idempotencyKey = some key ∧ key ≠ "" := by
  obtain ⟨key, hkey, hfind⟩ := Option.bind_eq_some_iff.1 h
  refine ⟨List.mem_of_find?_eq_some hfind, key, hkey, by simpa using List.find?_some hfind, ?_⟩
  simpa using (Option.filter_eq_some_iff.1 hkey).2

theorem conversionByKey_eq_none {db : QuotationDb} {idempotencyKey : Option String} {key : String}
    (h : conversionByKey db idempotencyKey = none) (hkey : usedKey idempotencyKey = some key) :
    ∀ c ∈ db.conversions.values, c.idempotencyKey ≠ some key := by
  rw [conversionByKey, show (idempotencyKey.filter fun key => key ≠ "") = some key from hkey, Option.bind_some,
    List.find?_eq_none] at h
  intro c hc hsame
  exact h c hc (by simp [hsame])

/-! ## The write -/

/-- What a conversion writes. -/
structure ConversionWrite (r : ConversionRequest) (quotationId : ℕ) (db db' : QuotationDb) : Prop where
  unique : ConversionUnique db (r.conversion db.orders.nextId)
  conversions : db'.conversions = db.conversions.insert (r.conversion db.orders.nextId)
  orders : ∃ o, db'.orders = db.orders.insert o ∧ o.quotationRevisionId = some r.revisionId
  revisions : db'.revisions = db.revisions.modify r.revisionId fun v => { v with status := .converted }
  quotations : ∃ f, db'.quotations = db.quotations.modify quotationId f

theorem createServiceOrder_spec {env : Env} {db ordered : QuotationDb} {quotation : Quotation}
    {revision : ℕ × QuotationRevision} {orderId : ℕ}
    (h : createServiceOrderFromQuotation env db quotation revision = .ok (ordered, orderId)) :
    orderId = db.orders.nextId ∧ ordered.conversions = db.conversions ∧ ordered.revisions = db.revisions ∧
      ordered.quotations = db.quotations ∧
      ∃ o, ordered.orders = db.orders.insert o ∧ o.quotationRevisionId = some revision.1 := by
  simp only [createServiceOrderFromQuotation, bind_eq_ok, pure_eq_ok, Prod.mk.injEq] at h
  obtain ⟨_, -, rfl, rfl⟩ := h
  exact ⟨rfl, rfl, rfl, rfl, _, rfl, rfl⟩

theorem recordConversion_write {r : ConversionRequest} {db : QuotationDb} {quotation : Quotation}
    {revision : QuotationRevision} {ordered : QuotationDb × ℕ}
    (h : createServiceOrderFromQuotation r.env db quotation (r.revisionId, revision) = .ok ordered)
    (hunique : ConversionUnique ordered.1 (r.conversion ordered.2)) :
    ConversionWrite r revision.quotationId db
      (recordConversion ordered.1 r.revisionId revision.quotationId (r.conversion ordered.2)) := by
  obtain ⟨ordered, orderId⟩ := ordered
  obtain ⟨rfl, hconversions, hrevisions, hquotations, o, horders, ho⟩ := createServiceOrder_spec h
  refine ⟨?_, ?_, ⟨o, horders, ho⟩, ?_, ?_⟩
  · rw [ConversionUnique, hconversions] at hunique
    exact hunique
  · simp only [recordConversion, setQuotationStatus, modifyQuotation, setRevisionStatus, hconversions]
  · simp only [recordConversion, setQuotationStatus, modifyQuotation, setRevisionStatus, hrevisions]
  · refine ⟨fun q => { q with status := RevisionStatus.converted.code }, ?_⟩
    simp only [recordConversion, setQuotationStatus, modifyQuotation, setRevisionStatus, hquotations]

namespace ConversionWrite
variable {r : ConversionRequest} {quotationId : ℕ} {db db' : QuotationDb}

theorem quotationOfRevision (w : ConversionWrite r quotationId db db') (revisionId : ℕ) :
    quotationOfRevision db' revisionId = LcsSystem.quotationOfRevision db revisionId := by
  rw [LcsSystem.quotationOfRevision, w.revisions, Table.get?_modify]
  split
  · rw [Option.map_map]
    rfl
  · rfl

theorem stored (w : ConversionWrite r quotationId db db') {revisionId : ℕ}
    (h : ∃ q v, revisionWithQuotation db revisionId = .ok (q, v)) :
    ∃ q v, revisionWithQuotation db' revisionId = .ok (q, v) := by
  obtain ⟨q, v, hread⟩ := h
  obtain ⟨hv, hq⟩ := revisionWithQuotation_eq_ok.1 hread
  obtain ⟨f, hquotations⟩ := w.quotations
  have hsame := w.quotationOfRevision revisionId
  rw [LcsSystem.quotationOfRevision, LcsSystem.quotationOfRevision, hv, Option.map_some, Option.map_eq_some_iff] at hsame
  obtain ⟨v', hv', hparent⟩ := hsame
  have hq' : ∃ q', db'.quotations.get? v'.quotationId = some q' := by
    rw [hparent, hquotations, Table.get?_modify, hq]
    split <;> simp
  obtain ⟨q', hq'⟩ := hq'
  exact ⟨q', v', revisionWithQuotation_eq_ok.2 ⟨hv', hq'⟩⟩

theorem values (w : ConversionWrite r quotationId db db') :
    db'.conversions.values = db.conversions.values ++ [r.conversion db.orders.nextId] := by
  rw [w.conversions, Table.values_insert]

theorem tables (w : ConversionWrite r quotationId db db') (h : ConversionTables db)
    (hread : ∃ q v, revisionWithQuotation db r.revisionId = .ok (q, v)) : ConversionTables db' where
  linked c hc := by
    rw [w.values, List.mem_append, List.mem_singleton] at hc
    rcases hc with hc | rfl
    · exact w.stored (h.linked c hc)
    · exact w.stored hread
  keys i j c d key hi hj hc hd := by
    have hnew : ∀ k e, db.conversions.get? k = some e → e.idempotencyKey = some key →
        r.idempotencyKey ≠ some key := by
      intro k e hk he hr
      have hdistinct := (w.unique e (Table.mem_values.2 ⟨k, hk⟩)).2.2
      rw [ConversionRequest.conversion, hr] at hdistinct
      exact hdistinct rfl he
    rw [w.conversions, Table.get?_insert] at hi hj
    split at hi <;> split at hj
    · next hi' hj' => rw [hi', hj']
    · cases hi
      exact absurd hc (hnew j d hj hd)
    · cases hj
      exact absurd hd (hnew i c hi hc)
    · exact h.keys i j c d key hi hj hc hd
  ordered id o revisionId ho hrevision := by
    obtain ⟨p, horders, hp⟩ := w.orders
    rw [horders, Table.get?_insert] at ho
    rw [w.values]
    split at ho
    · next hid =>
      cases ho
      rw [hp, Option.some.injEq] at hrevision
      exact ⟨_, List.mem_append_right _ (List.mem_singleton_self _), hrevision, hid.symm⟩
    · obtain ⟨c, hc, hsame⟩ := h.ordered id o revisionId ho hrevision
      exact ⟨c, List.mem_append_left _ hc, hsame⟩

/-- A write keeps the property where the quotation was not converted. -/
theorem once (w : ConversionWrite r quotationId db db') (h : ConvertedOnce db) (ht : ConversionTables db)
    (hparent : LcsSystem.quotationOfRevision db r.revisionId = some quotationId)
    (hprior : conversionForQuotation db quotationId = none) : ConvertedOnce db' := by
  have hnone := conversionForQuotation_eq_none.1 hprior
  have hnew : ∀ {id}, LcsSystem.quotationOfRevision db (r.conversion db.orders.nextId).quotationRevisionId = some id →
      id = quotationId := by
    intro id hid
    exact Option.some.inj (hid.symm.trans hparent)
  have horder : ∀ {i o id}, db.orders.get? i = some o →
      o.quotationRevisionId.bind (LcsSystem.quotationOfRevision db) = some id → id ≠ quotationId := by
    rintro i o id ho hid rfl
    obtain ⟨revisionId, hrevision, hof⟩ := Option.bind_eq_some_iff.1 hid
    obtain ⟨c, hc, rfl, -⟩ := ht.ordered i o revisionId ho hrevision
    exact hnone c hc hof
  have hfun : LcsSystem.quotationOfRevision db' = LcsSystem.quotationOfRevision db := funext w.quotationOfRevision
  constructor
  · intro i j c d id hi hj hc hd
    rw [hfun] at hc hd
    rw [w.conversions, Table.get?_insert] at hi hj
    split at hi <;> split at hj
    · next hi' hj' => rw [hi', hj']
    · cases hi
      exact absurd (hnew hc ▸ hd) (hnone d (Table.mem_values.2 ⟨j, hj⟩))
    · cases hj
      exact absurd (hnew hd ▸ hc) (hnone c (Table.mem_values.2 ⟨i, hi⟩))
    · exact h.conversion i j c d id hi hj hc hd
  · intro i j o p id hi hj ho hp
    obtain ⟨new, horders, hrevision⟩ := w.orders
    have hnew' : ∀ {id}, new.quotationRevisionId.bind (LcsSystem.quotationOfRevision db) = some id → id = quotationId := by
      intro id hid
      rw [hrevision, Option.bind_some] at hid
      exact Option.some.inj (hid.symm.trans hparent)
    rw [hfun] at ho hp
    rw [horders, Table.get?_insert] at hi hj
    split at hi <;> split at hj
    · next hi' hj' => rw [hi', hj']
    · cases hi
      exact absurd (hnew' ho) (horder hj hp)
    · cases hj
      exact absurd (hnew' hp) (horder hi ho)
    · exact h.order i j o p id hi hj ho hp

end ConversionWrite

/-! ## The condition -/

/-- The number of the next order is not taken. -/
def OrderNumberFree (env : Env) (db : QuotationDb) : Prop :=
  ∀ o ∈ db.orders.values, o.serviceOrderNo ≠ (allocateNumber env db.sequences "SERVICE_ORDER").2

instance (env : Env) (db : QuotationDb) : Decidable (OrderNumberFree env db) :=
  inferInstanceAs (Decidable (∀ o ∈ db.orders.values, _))

/-- A request whose key was used since it looked for the key is not refused before it writes, and one whose
quotation was converted since it looked for that is refused by a unique constraint. -/
def NotOvertaken (db : QuotationDb) (_log : List ConversionAnswer) : ConversionTxn → Prop
  | .readRevision r =>
    (conversionByKey db r.idempotencyKey).isSome = true → (revisionWithQuotation db r.revisionId).isOk = true
  | .readPrior r _ revision =>
    (conversionByKey db r.idempotencyKey).isSome = true → (checkConvertible db revision).isOk = true
  | .write r _ revision =>
    ((conversionByKey db r.idempotencyKey).isSome = true → OrderNumberFree r.env db) ∧
    (OrderNumberFree r.env db → (conversionForQuotation db revision.quotationId).isSome = true →
      ¬ConversionUnique db (r.conversion db.orders.nextId))
  | .readKey _ | .lockSequence .. | .replay _ => True

instance (db : QuotationDb) (log : List ConversionAnswer) : ∀ t, Decidable (NotOvertaken db log t)
  | .readRevision r => inferInstanceAs (Decidable (_ → (revisionWithQuotation db r.revisionId).isOk = true))
  | .readPrior _ _ revision => inferInstanceAs (Decidable (_ → (checkConvertible db revision).isOk = true))
  | .write _ _ _ => inferInstanceAs (Decidable ((_ → OrderNumberFree _ _) ∧ (OrderNumberFree _ _ → _ → ¬_)))
  | .readKey _ | .lockSequence .. | .replay _ => .isTrue trivial

/-- The revision that a request has read is still one of the same quotation. -/
def ReadRevision (db : QuotationDb) : ConversionTxn → Prop
  | .readPrior r _ revision | .lockSequence r _ revision | .write r _ revision =>
    quotationOfRevision db r.revisionId = some revision.quotationId ∧
      ∃ q v, revisionWithQuotation db r.revisionId = .ok (q, v)
  | .readKey _ | .readRevision _ | .replay _ => True

theorem createServiceOrder_isOk {env : Env} {db : QuotationDb} {quotation : Quotation}
    {revision : ℕ × QuotationRevision} :
    (∃ ordered, createServiceOrderFromQuotation env db quotation revision = .ok ordered) ↔ OrderNumberFree env db := by
  simp only [createServiceOrderFromQuotation]
  constructor
  · rintro ⟨ordered, h⟩
    simp only [bind_eq_ok, check_eq_ok] at h
    exact h.choose_spec.1
  · intro h
    have hnumber : ∀ o ∈ db.orders.values,
      o.serviceOrderNo ≠ (allocateNumber env db.sequences "SERVICE_ORDER").2 := h
    simp only [check_pos hnumber, ok_bind]
    exact ⟨_, rfl⟩

/-! ## The invariant -/

/-- The property with what it rests on; `before` are the answers to the conversions that were there first. -/
structure AnsweredOnce (before : List ConversionAnswer) (db : QuotationDb) (log : List ConversionAnswer) : Prop where
  tables : ConversionTables db
  once : ConvertedOnce db
  repeats : (before ++ log).Pairwise Repeats
  created : (before ++ log).filter ConversionAnswer.created = db.conversions.values.map QuotationConversion.answer

namespace AnsweredOnce
variable {before : List ConversionAnswer} {db db' : QuotationDb} {log : List ConversionAnswer} {r : ConversionRequest}

/-- An answer that created an order is the one of a conversion. -/
theorem exists_conversion (h : AnsweredOnce before db log) {a : ConversionAnswer} (ha : a ∈ before ++ log)
    (hcreated : a.created = true) : ∃ c ∈ db.conversions.values, c.answer = a := by
  have hmem : a ∈ (before ++ log).filter ConversionAnswer.created := List.mem_filter.2 ⟨ha, hcreated⟩
  rw [h.created] at hmem
  exact List.mem_map.1 hmem

theorem usedKey_eq_some {idempotencyKey : Option String} {key : String} (h : usedKey idempotencyKey = some key) :
    idempotencyKey = some key := (Option.filter_eq_some_iff.1 h).1

/-- An answer that creates nothing. -/
theorem answer (h : AnsweredOnce before db log) {b : ConversionAnswer} (hb : b.created = false)
    (hkey : ∀ key, b.idempotencyKey = some key → ∀ c ∈ db.conversions.values, c.idempotencyKey = some key →
      b = ⟨some key, false, some c.serviceOrderId⟩) : AnsweredOnce before db (log ++ [b]) where
  tables := h.tables
  once := h.once
  repeats := by
    rw [← List.append_assoc, List.pairwise_append]
    refine ⟨h.repeats, List.pairwise_singleton _ _, fun a ha b' hb' hcreated key hakey hbkey => ?_⟩
    rw [List.mem_singleton] at hb'
    subst hb'
    obtain ⟨c, hc, rfl⟩ := h.exists_conversion ha hcreated
    exact hkey key hbkey c hc (usedKey_eq_some hakey)
  created := by
    rw [← List.append_assoc, List.filter_append, h.created]
    simp [hb]

theorem refuse (h : AnsweredOnce before db log) (hkey : conversionByKey db r.idempotencyKey = none) :
    AnsweredOnce before db (log ++ [r.refused]) :=
  h.answer rfl fun _ hbkey c hc hsame => absurd hsame (conversionByKey_eq_none hkey hbkey c hc)

theorem replay (h : AnsweredOnce before db log) {c : QuotationConversion}
    (hc : conversionByKey db r.idempotencyKey = some c) : AnsweredOnce before db (log ++ [r.replayed c]) := by
  obtain ⟨hmem, key, hkey, hckey, -⟩ := conversionByKey_eq_some hc
  refine h.answer rfl fun key' hkey' d hd hdkey => ?_
  have hsame : key' = key := Option.some.inj (hkey'.symm.trans hkey)
  subst hsame
  obtain ⟨i, hi⟩ := Table.mem_values.1 hmem
  obtain ⟨j, hj⟩ := Table.mem_values.1 hd
  have hij := h.tables.keys i j c d key' hi hj hckey hdkey
  subst hij
  rw [Option.some.inj (hj.symm.trans hi), ConversionRequest.replayed, hkey]

theorem write (h : AnsweredOnce before db log) {quotationId : ℕ} (w : ConversionWrite r quotationId db db')
    (hread : quotationOfRevision db r.revisionId = some quotationId ∧
      ∃ q v, revisionWithQuotation db r.revisionId = .ok (q, v))
    (hprior : conversionForQuotation db quotationId = none) :
    AnsweredOnce before db' (log ++ [(r.conversion db.orders.nextId).answer]) where
  tables := w.tables h.tables hread.2
  once := w.once h.once h.tables hread.1 hprior
  repeats := by
    rw [← List.append_assoc, List.pairwise_append]
    refine ⟨h.repeats, List.pairwise_singleton _ _, fun a ha b hb hcreated key hakey hbkey => ?_⟩
    rw [List.mem_singleton] at hb
    subst hb
    obtain ⟨c, hc, rfl⟩ := h.exists_conversion ha hcreated
    have hnew : r.idempotencyKey = some key := usedKey_eq_some hbkey
    have hdistinct := (w.unique c hc).2.2
    rw [ConversionRequest.conversion, hnew] at hdistinct
    exact absurd (usedKey_eq_some hakey) (hdistinct rfl)
  created := by
    rw [← List.append_assoc, List.filter_append, h.created, w.values, List.map_append]
    rfl

end AnsweredOnce

/-! ## Runs -/

section
variable {before : List ConversionAnswer} {db db' : QuotationDb} {log : List ConversionAnswer} {free : ℕ → Bool}

theorem answerReplay_commits {r : ConversionRequest} {c : QuotationConversion} {event : Option ConversionAnswer}
    (h : AnsweredOnce before db log) (hc : conversionByKey db r.idempotencyKey = some c)
    (hcommit : answerReplay db r c = .commits db' event) : AnsweredOnce before db' (log ++ event.toList) := by
  obtain ⟨q, v, hread⟩ := h.tables.linked c (conversionByKey_eq_some hc).1
  simp only [answerReplay, hread, orRefuse_ok, Transactions.Outcome.commits.injEq] at hcommit
  obtain ⟨rfl, rfl⟩ := hcommit
  exact h.replay hc

/-- A refusal at a check that passes where the key is used: the key is not used. -/
theorem key_of_refused {α : Type} {r : ConversionRequest} {x : Result α} {e : Error}
    (hovertaken : (conversionByKey db r.idempotencyKey).isSome = true → x.isOk = true) (hx : x = .error e) :
    conversionByKey db r.idempotencyKey = none := by
  subst hx
  cases hkey : conversionByKey db r.idempotencyKey with
  | none => rfl
  | some c =>
    rw [hkey] at hovertaken
    exact absurd (hovertaken rfl) (by simp [Except.isOk, Except.toBool])

theorem ConversionTxn.next_commits {t : ConversionTxn} {event : Option ConversionAnswer}
    (h : AnsweredOnce before db log) (hread : ReadRevision db t) (hovertaken : NotOvertaken db log t)
    (hcommit : t.next db free = .commits db' event) : AnsweredOnce before db' (log ++ event.toList) := by
  cases t with
  | readKey r =>
    simp only [ConversionTxn.next] at hcommit
    split at hcommit
    · next c hc => exact answerReplay_commits h hc hcommit
    · cases hcommit
  | readRevision r =>
    simp only [ConversionTxn.next, orRefuse_eq_commits] at hcommit
    obtain ⟨e, he, rfl, rfl⟩ | ⟨_, -, hcommit⟩ := hcommit
    · exact h.refuse (key_of_refused hovertaken he)
    · cases hcommit
  | readPrior r quotation revision =>
    simp only [ConversionTxn.next, orRefuse_eq_commits] at hcommit
    obtain ⟨e, he, rfl, rfl⟩ | ⟨_, -, hcommit⟩ := hcommit
    · exact h.refuse (key_of_refused hovertaken he)
    · cases hcommit
  | lockSequence r quotation revision => simp [ConversionTxn.next] at hcommit
  | write r quotation revision =>
    simp only [ConversionTxn.next, orRefuse_eq_commits] at hcommit
    obtain ⟨e, he, rfl, rfl⟩ | ⟨ordered, hordered, hcommit⟩ := hcommit
    · refine h.refuse (key_of_refused (fun hkey => ?_) he)
      exact isOk_eq_true.2 (createServiceOrder_isOk.2 (hovertaken.1 hkey))
    · split at hcommit
      · next hunique =>
        simp only [Transactions.Outcome.commits.injEq] at hcommit
        obtain ⟨rfl, rfl⟩ := hcommit
        have w := recordConversion_write hordered hunique
        have hid : ordered.2 = db.orders.nextId := (createServiceOrder_spec hordered).1
        have hprior : conversionForQuotation db revision.quotationId = none := by
          rw [← Option.not_isSome_iff_eq_none]
          exact fun hprior => hovertaken.2 (createServiceOrder_isOk.1 ⟨ordered, hordered⟩) hprior w.unique
        rw [hid] at w ⊢
        exact h.write w hread hprior
      · cases hcommit
  | replay r =>
    simp only [ConversionTxn.next] at hcommit
    split at hcommit
    · next c hc => exact answerReplay_commits h hc hcommit
    · next hkey =>
      simp only [Transactions.Outcome.commits.injEq] at hcommit
      obtain ⟨rfl, rfl⟩ := hcommit
      exact h.refuse hkey

/-- A commit changes nothing, or it is a write. -/
theorem ConversionTxn.commits_write {t : ConversionTxn} {event : Option ConversionAnswer}
    (hcommit : t.next db free = .commits db' event) : db' = db ∨ ∃ r quotationId, ConversionWrite r quotationId db db' := by
  have hreplay : ∀ {r c}, answerReplay db r c = .commits db' event → db' = db := by
    intro r c h
    simp only [answerReplay, orRefuse_eq_commits, Transactions.Outcome.commits.injEq] at h
    rcases h with ⟨_, -, rfl, -⟩ | ⟨_, -, rfl, -⟩ <;> rfl
  cases t with
  | readKey r =>
    simp only [ConversionTxn.next] at hcommit
    split at hcommit
    · exact .inl (hreplay hcommit)
    · cases hcommit
  | readRevision r =>
    simp only [ConversionTxn.next, orRefuse_eq_commits] at hcommit
    obtain ⟨_, -, rfl, -⟩ | ⟨_, -, hcommit⟩ := hcommit
    · exact .inl rfl
    · cases hcommit
  | readPrior r quotation revision =>
    simp only [ConversionTxn.next, orRefuse_eq_commits] at hcommit
    obtain ⟨_, -, rfl, -⟩ | ⟨_, -, hcommit⟩ := hcommit
    · exact .inl rfl
    · cases hcommit
  | lockSequence r quotation revision => simp [ConversionTxn.next] at hcommit
  | write r quotation revision =>
    simp only [ConversionTxn.next, orRefuse_eq_commits] at hcommit
    obtain ⟨_, -, rfl, -⟩ | ⟨ordered, hordered, hcommit⟩ := hcommit
    · exact .inl rfl
    · split at hcommit
      · next hunique =>
        simp only [Transactions.Outcome.commits.injEq] at hcommit
        obtain ⟨rfl, -⟩ := hcommit
        exact .inr ⟨r, _, recordConversion_write hordered hunique⟩
      · cases hcommit
  | replay r =>
    simp only [ConversionTxn.next] at hcommit
    split at hcommit
    · exact .inl (hreplay hcommit)
    · simp only [Transactions.Outcome.commits.injEq] at hcommit
      exact .inl hcommit.1.symm

theorem ReadRevision.commit {t u : ConversionTxn} {event : Option ConversionAnswer} (h : ReadRevision db u)
    (hcommit : t.next db free = .commits db' event) : ReadRevision db' u := by
  rcases ConversionTxn.commits_write hcommit with rfl | ⟨r, quotationId, w⟩
  · exact h
  · cases u with
    | readKey _ | readRevision _ | replay _ => trivial
    | readPrior _ _ _ | lockSequence _ _ _ | write _ _ _ =>
      exact ⟨(w.quotationOfRevision _).trans h.1, w.stored h.2⟩

theorem ReadRevision.continues {t t' : ConversionTxn} (h : ReadRevision db t) (hnext : t.next db free = .continues t') :
    ReadRevision db t' := by
  cases t with
  | readKey r =>
    simp only [ConversionTxn.next] at hnext
    split at hnext
    · simp only [answerReplay, orRefuse_eq_continues] at hnext
      obtain ⟨_, -, hnext⟩ := hnext
      cases hnext
    · cases hnext
      trivial
  | readRevision r =>
    simp only [ConversionTxn.next, orRefuse_eq_continues] at hnext
    obtain ⟨⟨quotation, revision⟩, hread, hnext⟩ := hnext
    cases hnext
    refine ⟨?_, quotation, revision, hread⟩
    rw [quotationOfRevision, (revisionWithQuotation_eq_ok.1 hread).1, Option.map_some]
  | readPrior r quotation revision =>
    simp only [ConversionTxn.next, orRefuse_eq_continues] at hnext
    obtain ⟨_, -, hnext⟩ := hnext
    cases hnext
    exact h
  | lockSequence r quotation revision =>
    simp only [ConversionTxn.next, whenFree_eq_continues] at hnext
    obtain ⟨-, hnext⟩ := hnext
    cases hnext
    exact h
  | write r quotation revision =>
    simp only [ConversionTxn.next, orRefuse_eq_continues] at hnext
    obtain ⟨_, -, hnext⟩ := hnext
    split at hnext <;> cases hnext
    trivial
  | replay r =>
    simp only [ConversionTxn.next] at hnext
    split at hnext
    · simp only [answerReplay, orRefuse_eq_continues] at hnext
      obtain ⟨_, -, hnext⟩ := hnext
      cases hnext
    · cases hnext

theorem ConversionTxn.next_locks {t t' : ConversionTxn} (hnext : t.next db free = .continues t') :
    ∀ k ∈ converting.locks t', k ∈ converting.locks t ∨ free k = true := by
  cases t with
  | lockSequence r quotation revision =>
    simp only [ConversionTxn.next, whenFree_eq_continues] at hnext
    obtain ⟨hfree, hnext⟩ := hnext
    cases hnext
    intro k hk
    rw [List.mem_singleton.1 hk]
    exact .inr hfree
  | readKey r =>
    simp only [ConversionTxn.next] at hnext
    split at hnext
    · simp only [answerReplay, orRefuse_eq_continues] at hnext
      obtain ⟨_, -, hnext⟩ := hnext
      cases hnext
    · cases hnext
      simp [converting]
  | readRevision r =>
    simp only [ConversionTxn.next, orRefuse_eq_continues] at hnext
    obtain ⟨_, -, hnext⟩ := hnext
    cases hnext
    simp [converting]
  | readPrior r quotation revision =>
    simp only [ConversionTxn.next, orRefuse_eq_continues] at hnext
    obtain ⟨_, -, hnext⟩ := hnext
    cases hnext
    simp [converting]
  | write r quotation revision =>
    simp only [ConversionTxn.next, orRefuse_eq_continues] at hnext
    obtain ⟨_, -, hnext⟩ := hnext
    split at hnext <;> cases hnext
    simp [converting]
  | replay r =>
    simp only [ConversionTxn.next] at hnext
    split at hnext
    · simp only [answerReplay, orRefuse_eq_continues] at hnext
      obtain ⟨_, -, hnext⟩ := hnext
      cases hnext
    · cases hnext

theorem converting_rules (before : List ConversionAnswer) :
    Rules converting (AnsweredOnce before) ReadRevision NotOvertaken where
  start_locks _ := rfl
  start _ _ := trivial
  acquires hnext := ConversionTxn.next_locks hnext
  continues _ hread _ hnext := hread.continues hnext
  commits h hread hovertaken hcommit := ConversionTxn.next_commits h hread hovertaken hcommit
  frame _ _ hread _ _ hcommit := hread.commit hcommit

end

/-- The answers of a run, after those to the conversions that were there first. -/
def answers (db : QuotationDb) (s : Transactions.System QuotationDb ConversionTxn ConversionAnswer) : List ConversionAnswer :=
  db.conversions.values.map QuotationConversion.answer ++ s.log

theorem ConversionTables.repeats {db : QuotationDb} (h : ConversionTables db) :
    (db.conversions.values.map QuotationConversion.answer).Pairwise Repeats := by
  have hids : db.conversions.rows.Pairwise fun a b => a.1 ≠ b.1 := List.pairwise_map.1 db.conversions.nodup
  rw [Table.values, List.map_map, List.pairwise_map]
  refine hids.imp_of_mem fun {a b} ha hb hne _ key hakey hbkey => ?_
  exact absurd (h.keys a.1 b.1 a.2 b.2 key (Table.get?_eq_some.2 ha) (Table.get?_eq_some.2 hb)
    (AnsweredOnce.usedKey_eq_some hakey) (AnsweredOnce.usedKey_eq_some hbkey)) hne

/-- Two revisions of one quotation, both submitted. -/
def submittedTwice : QuotationDb :=
  run quotationStep office [.save january offer, .submit 1, .create january 1 .empty, .submit 2]

theorem submittedTwice_tables : ConversionTables submittedTwice ∧ ConvertedOnce submittedTwice := by
  have hconversions : submittedTwice.conversions.rows = [] := by decide +kernel
  have horders : submittedTwice.orders.rows = [] := by decide +kernel
  have hnoConversion : ∀ i c, submittedTwice.conversions.get? i ≠ some c := by
    intro i c hc
    have hmem := Table.get?_eq_some.1 hc
    rw [hconversions] at hmem
    cases hmem
  have hnoOrder : ∀ i o, submittedTwice.orders.get? i ≠ some o := by
    intro i o ho
    have hmem := Table.get?_eq_some.1 ho
    rw [horders] at hmem
    cases hmem
  refine ⟨⟨fun c hc => ?_, fun i _ c _ _ hc => ?_, fun i o _ ho => ?_⟩, ⟨fun i _ c _ _ hc => ?_, fun i _ o _ _ ho => ?_⟩⟩
  · obtain ⟨i, hi⟩ := Table.mem_values.1 hc
    exact absurd hi (hnoConversion i c)
  · exact absurd hc (hnoConversion i c)
  · exact absurd ho (hnoOrder i o)
  · exact absurd hc (hnoConversion i c)
  · exact absurd ho (hnoOrder i o)

/-- Two requests for one revision under one key, which both find nothing before one of them writes. -/
def doubleClick : List (Action ConversionRequest) :=
  [.start ⟨january, 1, some "k"⟩, .start ⟨january, 1, some "k"⟩] ++
    (List.replicate 3 [.advance 1, .advance 2]).flatten ++ List.replicate 2 (.advance 1) ++ List.replicate 3 (.advance 2)

example : (run converting.step (.idle submittedTwice) doubleClick).log =
    [⟨some "k", true, some 1⟩, ⟨some "k", false, some 1⟩] := by decide +kernel

/-- The same with two revisions of the quotation. -/
def crossedConversions : List (Action ConversionRequest) :=
  [.start ⟨january, 1, some "k"⟩, .start ⟨january, 2, some "l"⟩] ++
    (List.replicate 3 [.advance 1, .advance 2]).flatten ++ List.replicate 2 (.advance 1) ++ List.replicate 2 (.advance 2)

/-- The same key, where one request is done before the other looks at the quotation. -/
def crossedKeys : List (Action ConversionRequest) :=
  [.start ⟨january, 1, some "k"⟩, .start ⟨january, 1, some "k"⟩, .advance 2] ++
    List.replicate 5 (.advance 1) ++ List.replicate 2 (.advance 2)

section
variable {before : List ConversionAnswer} {db db' : QuotationDb} {log : List ConversionAnswer} {free : ℕ → Bool}
  {event : Option ConversionAnswer}

/-- A request that is refused although its key is used. -/
theorem refusal_of_used_key {r : ConversionRequest} (h : AnsweredOnce before db log)
    (hkey : (conversionByKey db r.idempotencyKey).isSome = true) : ¬(before ++ (log ++ [r.refused])).Pairwise Repeats := by
  obtain ⟨c, hc⟩ := Option.isSome_iff_exists.1 hkey
  obtain ⟨hmem, key, hused, hckey, hne⟩ := conversionByKey_eq_some hc
  have hanswer : c.answer ∈ before ++ log := by
    have hcreated : c.answer ∈ (before ++ log).filter ConversionAnswer.created := by
      rw [h.created]
      exact List.mem_map_of_mem hmem
    exact (List.mem_filter.1 hcreated).1
  have hcused : usedKey c.idempotencyKey = some key := by simp [usedKey, hckey, hne]
  rw [← List.append_assoc, List.pairwise_append]
  rintro ⟨-, -, hrepeats⟩
  have hrepeat := hrepeats _ hanswer _ (List.mem_singleton_self _) rfl key hcused hused
  exact absurd (congrArg ConversionAnswer.serviceOrderId hrepeat) nofun

/-- A statement that is overtaken breaks the property when it commits: it converts the quotation once more, or
it refuses a used key. -/
theorem overtaken_breaks {t : ConversionTxn} (h : AnsweredOnce before db log) (hread : ReadRevision db t)
    (hovertaken : ¬NotOvertaken db log t) (hcommit : t.next db free = .commits db' event) :
    ¬(ConvertedOnce db' ∧ (before ++ (log ++ event.toList)).Pairwise Repeats) := by
  cases t with
  | readKey _ | lockSequence _ _ _ | replay _ => exact absurd trivial hovertaken
  | readRevision r =>
    simp only [NotOvertaken, Classical.not_imp] at hovertaken
    simp only [ConversionTxn.next, orRefuse_eq_commits] at hcommit
    obtain ⟨e, he, rfl, rfl⟩ | ⟨_, -, hcommit⟩ := hcommit
    · exact fun hboth => refusal_of_used_key h hovertaken.1 hboth.2
    · cases hcommit
  | readPrior r quotation revision =>
    simp only [NotOvertaken, Classical.not_imp] at hovertaken
    simp only [ConversionTxn.next, orRefuse_eq_commits] at hcommit
    obtain ⟨e, he, rfl, rfl⟩ | ⟨_, -, hcommit⟩ := hcommit
    · exact fun hboth => refusal_of_used_key h hovertaken.1 hboth.2
    · cases hcommit
  | write r quotation revision =>
    simp only [ConversionTxn.next, orRefuse_eq_commits] at hcommit
    obtain ⟨e, he, rfl, rfl⟩ | ⟨ordered, hordered, hcommit⟩ := hcommit
    · have htaken : ¬OrderNumberFree r.env db := by
        intro hfree
        obtain ⟨ordered, hordered⟩ := createServiceOrder_isOk.2 hfree
        rw [hordered] at he
        cases he
      have hkey : (conversionByKey db r.idempotencyKey).isSome = true := by
        by_contra hunused
        exact hovertaken ⟨fun hkey => absurd hkey hunused, fun hfree => absurd hfree htaken⟩
      exact fun hboth => refusal_of_used_key h hkey hboth.2
    · split at hcommit
      · next hunique =>
        simp only [Transactions.Outcome.commits.injEq] at hcommit
        obtain ⟨rfl, rfl⟩ := hcommit
        have w := recordConversion_write hordered hunique
        have hprior : conversionForQuotation db revision.quotationId ≠ none := by
          intro hnone
          refine hovertaken ⟨fun _ => createServiceOrder_isOk.1 ⟨ordered, hordered⟩, fun _ hprior => ?_⟩
          rw [hnone] at hprior
          cases hprior
        rw [ne_eq, conversionForQuotation_eq_none, not_forall₂] at hprior
        obtain ⟨c, hc, hof⟩ := hprior
        obtain ⟨i, hi⟩ := Table.mem_values.1 hc
        rintro ⟨honce, -⟩
        refine (Table.lt_nextId hi).ne (honce.conversion i db.conversions.nextId c (r.conversion db.orders.nextId)
          revision.quotationId ?_ ?_ ?_ ?_)
        · rw [w.conversions]
          exact Table.get?_insert_of_some hi
        · rw [w.conversions]
          exact Table.get?_insert_self _ _
        · exact (w.quotationOfRevision _).trans (not_not.1 hof)
        · exact (w.quotationOfRevision _).trans hread.1
      · cases hcommit

end
end LcsSystem
