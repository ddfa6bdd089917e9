import LcsSystem.Quotations.LifecycleSteps

/-!
# Numbers of the revisions

Two writers take the next number of a revision from the table, a third column mirrors it on the quotation,
and an acceptance rewrites the statuses beside it. `RevisionsNumbered` is what all requests keep together;
`revisions_numbered` is the result over runs, with what an edit and an acceptance reach from there.
-/

namespace LcsSystem
open Relational Checks Transition

/-! ## Runs -/

inductive QuotationOperation
  | request (a : QuotationAction)
  | delete (ids : List ℕ)

def operationStep (db : QuotationDb) : QuotationOperation → QuotationDb
  | .request a => quotationStep db a
  | .delete ids => orKeep db (deleteQuotations db ids)

/-! ## The invariant -/

/-- The revisions of a quotation are numbered 1, 2, … up to its current one, and one of them at most is
accepted. -/
structure RevisionsNumbered (db : QuotationDb) : Prop where
  stored : ∀ id r, db.revisions.get? id = some r → ∃ q, db.quotations.get? r.quotationId = some q
  positive : ∀ id q, db.quotations.get? id = some q → 0 < q.currentRevisionNo
  numbers : ∀ id q, db.quotations.get? id = some q →
    (db.revisionsOf id).map (fun r => r.2.revisionNo) = List.range' 1 q.currentRevisionNo
  accepted : ∀ i j r s, db.revisions.get? i = some r → db.revisions.get? j = some s →
    r.quotationId = s.quotationId → r.status = .accepted → s.status = .accepted → i = j

theorem revisionsNumbered_iff {db : QuotationDb} :
    RevisionsNumbered db ↔ db.lifecycle.Numbered ∧ db.lifecycle.OneAccepted := by
  constructor
  · intro h
    refine ⟨⟨fun id r hr => ?_, fun id q hq => ?_, fun id q hq => ?_⟩, fun i j r s hr hs => ?_⟩
    · rw [lifecycle_get?_revisions, Option.map_eq_some_iff] at hr
      obtain ⟨r, hr, rfl⟩ := hr
      obtain ⟨q, hq⟩ := h.stored id r hr
      exact ⟨q.head, by rw [lifecycle_get?_quotations]; exact Option.map_eq_some_iff.2 ⟨q, hq, rfl⟩⟩
    · rw [lifecycle_get?_quotations, Option.map_eq_some_iff] at hq
      obtain ⟨q, hq, rfl⟩ := hq
      exact h.positive id q hq
    · rw [lifecycle_get?_quotations, Option.map_eq_some_iff] at hq
      obtain ⟨q, hq, rfl⟩ := hq
      exact (lifecycle_numbersOf db id).trans (h.numbers id q hq)
    · rw [lifecycle_get?_revisions, Option.map_eq_some_iff] at hr hs
      obtain ⟨r, hr, rfl⟩ := hr
      obtain ⟨s, hs, rfl⟩ := hs
      exact h.accepted i j r s hr hs
  · rintro ⟨hnumbered, haccepted⟩
    have hrevision : ∀ {id r}, db.revisions.get? id = some r → db.lifecycle.revisions.get? id = some r.head := by
      intro id r hr
      rw [lifecycle_get?_revisions, hr, Option.map_some]
    have hquotation : ∀ {id q}, db.quotations.get? id = some q → db.lifecycle.quotations.get? id = some q.head := by
      intro id q hq
      rw [lifecycle_get?_quotations, hq, Option.map_some]
    refine ⟨fun id r hr => ?_, fun id q hq => ?_, fun id q hq => ?_, fun i j r s hr hs => ?_⟩
    · obtain ⟨q, hq⟩ := hnumbered.stored id r.head (hrevision hr)
      rw [lifecycle_get?_quotations, Option.map_eq_some_iff] at hq
      obtain ⟨q, hq, -⟩ := hq
      exact ⟨q, hq⟩
    · exact hnumbered.positive id q.head (hquotation hq)
    · exact (lifecycle_numbersOf db id).symm.trans (hnumbered.numbers id q.head (hquotation hq))
    · exact haccepted i j r.head s.head (hrevision hr) (hrevision hs)

namespace RevisionsNumbered
variable {db db' : QuotationDb}

theorem of_lifecycle (hnumbered : db'.lifecycle.Numbered) (haccepted : db'.lifecycle.OneAccepted) :
    RevisionsNumbered db' := revisionsNumbered_iff.2 ⟨hnumbered, haccepted⟩

theorem save (h : RevisionsNumbered db) {env : Env} {p : QuotationPayload} {quotationId revisionId : ℕ}
    (hsave : saveQuotation env db p = .ok (db', quotationId, revisionId)) : RevisionsNumbered db' := by
  obtain ⟨hnumbered, haccepted⟩ := revisionsNumbered_iff.1 h
  rcases saveQuotation_lifecycle hnumbered hsave with
    ⟨-, -, -, heq⟩ | ⟨q, latest, hstored, -, ⟨-, -, heq⟩ | ⟨-, -, heq⟩⟩
  · refine of_lifecycle ?_ ?_ <;> rw [heq]
    · exact hnumbered.register _
    · exact haccepted.register _
  · refine of_lifecycle ?_ ?_ <;> rw [heq]
    · exact hnumbered.relabel quotationId _
    · exact haccepted
  · have hq : db.lifecycle.quotations.get? quotationId = some q.head := by
      rw [lifecycle_get?_quotations, storedQuotation_eq_some hstored, Option.map_some]
    refine of_lifecycle ?_ ?_ <;> rw [heq]
    · exact hnumbered.reopen hq _
    · exact haccepted.reopen quotationId q.head _

theorem create (h : RevisionsNumbered db) {env : Env} {p : QuotationPayload} {quotationId revisionId : ℕ}
    (hcreate : createRevision env db quotationId p = .ok (db', revisionId)) : RevisionsNumbered db' := by
  obtain ⟨hnumbered, haccepted⟩ := revisionsNumbered_iff.1 h
  obtain ⟨q, latest, hq, -, heq⟩ := createRevision_lifecycle hnumbered hcreate
  have hhead : db.lifecycle.quotations.get? quotationId = some q.head := by
    rw [lifecycle_get?_quotations, hq, Option.map_some]
  refine of_lifecycle ?_ ?_ <;> rw [heq]
  · exact hnumbered.reopen hhead _
  · exact haccepted.reopen quotationId q.head _

theorem issue (h : RevisionsNumbered db) {verb : String} {status : RevisionStatus} {done : List RevisionStatus}
    {revisionId : ℕ} (hstatus : status ≠ .accepted) (hissue : issueRevision verb status done db revisionId = .ok db') :
    RevisionsNumbered db' := by
  obtain ⟨hnumbered, haccepted⟩ := revisionsNumbered_iff.1 h
  rcases issueRevision_lifecycle hissue with rfl | ⟨r, -, -, heq⟩
  · exact h
  · refine of_lifecycle ?_ ?_ <;> rw [heq]
    · exact (hnumbered.setStatus revisionId status).relabel r.quotationId _
    · exact haccepted.setStatus revisionId hstatus

theorem accept (h : RevisionsNumbered db) {revisionId : ℕ} (haccept : acceptRevision db revisionId = .ok db') :
    RevisionsNumbered db' := by
  obtain ⟨hnumbered, haccepted⟩ := revisionsNumbered_iff.1 h
  rcases acceptRevision_lifecycle haccept with ⟨-, -, -, rfl⟩ | ⟨r, hr, -, heq⟩
  · exact h
  · have hhead : db.lifecycle.revisions.get? revisionId = some r.head := by
      rw [lifecycle_get?_revisions, hr, Option.map_some]
    refine of_lifecycle ?_ ?_ <;> rw [heq]
    · exact hnumbered.accept r.quotationId revisionId
    · exact haccepted.accept hhead rfl

theorem withdraw (h : RevisionsNumbered db) {verb : String} {status : RevisionStatus} {revisionId : ℕ}
    (hstatus : status ≠ .accepted) (hwithdraw : withdrawRevision verb status db revisionId = .ok db') :
    RevisionsNumbered db' := by
  obtain ⟨hnumbered, haccepted⟩ := revisionsNumbered_iff.1 h
  rcases withdrawRevision_lifecycle hwithdraw with rfl | ⟨q, r, -, -, -, ⟨-, heq⟩ | ⟨-, heq⟩⟩
  · exact h
  · refine of_lifecycle ?_ ?_ <;> rw [heq]
    · exact (hnumbered.setStatus revisionId status).relabel r.quotationId _
    · exact haccepted.setStatus revisionId hstatus
  · refine of_lifecycle ?_ ?_ <;> rw [heq]
    · exact hnumbered.setStatus revisionId status
    · exact haccepted.setStatus revisionId hstatus

theorem convert (h : RevisionsNumbered db) {env : Env} {revisionId orderId : ℕ} {idempotencyKey : Option String}
    (hconvert : convertRevision env db revisionId idempotencyKey = .ok (db', orderId)) : RevisionsNumbered db' := by
  obtain ⟨hnumbered, haccepted⟩ := revisionsNumbered_iff.1 h
  rcases convertRevision_lifecycle hconvert with rfl | ⟨r, -, -, heq⟩
  · exact h
  · refine of_lifecycle ?_ ?_ <;> rw [heq]
    · exact hnumbered.convert r.quotationId revisionId
    · exact haccepted.setStatus revisionId (by decide)

theorem delete (h : RevisionsNumbered db) {ids : List ℕ} (hdelete : deleteQuotations db ids = .ok db') :
    RevisionsNumbered db' := by
  refine foldlM_relation (fun a b => RevisionsNumbered a → RevisionsNumbered b) (fun _ => id)
    (fun hab hbc ha => hbc (hab ha)) ?_ hdelete h
  intro a id b hturn ha
  obtain ⟨hnumbered, haccepted⟩ := revisionsNumbered_iff.1 ha
  rcases deleteQuotation_lifecycle hturn with rfl | ⟨conversions, heq⟩
  · exact ha
  · refine of_lifecycle ?_ ?_ <;> rw [heq]
    · exact hnumbered.remove id conversions
    · exact haccepted.remove id conversions

/-- **Step lemma.** -/
theorem step (h : RevisionsNumbered db) (a : QuotationOperation) : RevisionsNumbered (operationStep db a) := by
  cases a with
  | delete ids =>
    simp only [operationStep]
    cases hdelete : deleteQuotations db ids with
    | error e => exact h
    | ok db' => exact h.delete hdelete
  | request a =>
    simp only [operationStep, quotationStep]
    cases hrequest : a.request db with
    | error e => exact h
    | ok db' =>
      simp only [orKeep]
      cases a with
      | save env p =>
        simp only [QuotationAction.request, map_eq_ok] at hrequest
        obtain ⟨⟨db₁, quotationId, revisionId⟩, hsave, rfl⟩ := hrequest
        exact h.save hsave
      | create env quotationId p =>
        simp only [QuotationAction.request, map_eq_ok] at hrequest
        obtain ⟨⟨db₁, revisionId⟩, hcreate, rfl⟩ := hrequest
        exact h.create hcreate
      | send revisionId => exact h.issue (by decide) hrequest
      | submit revisionId => exact h.issue (by decide) hrequest
      | accept revisionId => exact h.accept hrequest
      | reject revisionId => exact h.withdraw (by decide) hrequest
      | cancel revisionId => exact h.withdraw (by decide) hrequest
      | convert env revisionId idempotencyKey =>
        simp only [QuotationAction.request, map_eq_ok] at hrequest
        obtain ⟨⟨db₁, orderId⟩, hconvert, rfl⟩ := hrequest
        exact h.convert hconvert

end RevisionsNumbered

/-! ## Edits -/

/-- A save writes the current revision of its quotation and passes the others by. -/
def EditsCurrent (db : QuotationDb) : Prop :=
  ∀ env p db' quotationId revisionId, saveQuotation env db p = .ok (db', quotationId, revisionId) →
    (∃ q r, db'.quotations.get? quotationId = some q ∧ db'.revisions.get? revisionId = some r ∧
      r.quotationId = quotationId ∧ r.revisionNo = q.currentRevisionNo) ∧
    ∀ id, id ≠ revisionId → SameRevision id db db'

theorem exists_of_lifecycle {db : QuotationDb} {quotationId revisionId : ℕ}
    (h : ∃ q r, db.lifecycle.quotations.get? quotationId = some q ∧ db.lifecycle.revisions.get? revisionId = some r ∧
      r.quotationId = quotationId ∧ r.revisionNo = q.currentRevisionNo) :
    ∃ q r, db.quotations.get? quotationId = some q ∧ db.revisions.get? revisionId = some r ∧
      r.quotationId = quotationId ∧ r.revisionNo = q.currentRevisionNo := by
  obtain ⟨q, r, hq, hr, hparent, hno⟩ := h
  rw [lifecycle_get?_quotations, Option.map_eq_some_iff] at hq
  rw [lifecycle_get?_revisions, Option.map_eq_some_iff] at hr
  obtain ⟨q, hq, rfl⟩ := hq
  obtain ⟨r, hr, rfl⟩ := hr
  exact ⟨q, r, hq, hr, hparent, hno⟩

theorem RevisionsNumbered.editsCurrent {db : QuotationDb} (h : RevisionsNumbered db) : EditsCurrent db := by
  intro env p db' quotationId revisionId hsave
  refine ⟨exists_of_lifecycle ?_, (saveQuotation_same hsave).2⟩
  have hnumbered := (revisionsNumbered_iff.1 h).1
  rcases saveQuotation_lifecycle hnumbered hsave with
    ⟨-, rfl, rfl, heq⟩ | ⟨q, latest, hstored, hlatest, hwritten⟩
  · rw [heq]
    exact ⟨_, _, Table.get?_insert_self _ _, Table.get?_insert_self _ _, rfl, rfl⟩
  · have hq := storedQuotation_eq_some hstored
    have hhead : db.lifecycle.quotations.get? quotationId = some q.head := by
      rw [lifecycle_get?_quotations, hq, Option.map_some]
    rcases hwritten with ⟨-, rfl, heq⟩ | ⟨-, rfl, heq⟩
    · obtain ⟨r, hr, hno⟩ := exists_latestRevision hnumbered hq
      rw [hlatest, Option.some.injEq] at hr
      subst hr
      obtain ⟨hget, hparent⟩ := latestRevision_eq_some hlatest
      rw [heq, Lifecycle.relabel, Table.get?_modify_self, hhead, lifecycle_get?_revisions, hget]
      exact ⟨_, _, rfl, rfl, hparent, hno⟩
    · rw [heq, Lifecycle.reopen, Table.get?_modify_self, hhead]
      exact ⟨_, _, rfl, Table.get?_insert_self _ _, rfl, rfl⟩

/-! ## Acceptances -/

/-- The revision `r` was accepted, and what competed with it was superseded. -/
structure AcceptedAlone (revisionId : ℕ) (r : QuotationRevision) (db db' : QuotationDb) : Prop where
  accepted : db'.revisions.get? revisionId = some { r with status := .accepted }
  siblings : ∀ id s, db.revisions.get? id = some s → id ≠ revisionId → s.quotationId = r.quotationId →
    db'.revisions.get? id = some { s with
      status := if s.status ∈ [.sent, .accepted, .submitted] then .superseded else s.status }
  others : ∀ id s, db.revisions.get? id = some s → s.quotationId ≠ r.quotationId → db'.revisions.get? id = some s
  headers : ∀ id, id ≠ r.quotationId → db'.quotations.get? id = db.quotations.get? id
  rest : db' = { db with quotations := db'.quotations, revisions := db'.revisions }

/-- To accept a revision is to supersede its competitors; to repeat an acceptance is to do nothing. -/
def AcceptsAlone (db : QuotationDb) : Prop :=
  ∀ revisionId db', acceptRevision db revisionId = .ok db' → ∃ r, db.revisions.get? revisionId = some r ∧
    (r.status = .accepted ∧ db' = db ∨ r.status = .sent ∧ AcceptedAlone revisionId r db db')

theorem foldl_supersede (db : QuotationDb) (others : List (ℕ × QuotationRevision)) :
    others.foldl (fun db other => setRevisionStatus db other.1 .superseded) db = { db with
      revisions := db.revisions.modifyAll (others.map Prod.fst) fun r => { r with status := .superseded } } := by
  induction others generalizing db with
  | nil => rfl
  | cons other others ih =>
    rw [List.foldl_cons, ih]
    rfl

theorem mem_competingRevisions {db : QuotationDb} {quotationId revisionId id : ℕ} {s : QuotationRevision}
    (hs : db.revisions.get? id = some s) : id ∈ (competingRevisions db quotationId revisionId).map Prod.fst ↔
      s.quotationId = quotationId ∧ id ≠ revisionId ∧ s.status ∈ [.sent, .accepted, .submitted] := by
  simp only [competingRevisions, QuotationDb.revisionsOf, List.mem_map, List.mem_filter, decide_eq_true_eq]
  constructor
  · rintro ⟨⟨i, t⟩, ⟨ht, hne, hstatus⟩, rfl⟩
    obtain ⟨hget, hparent⟩ := Table.mem_select.1 ht
    rw [hs, Option.some.injEq] at hget
    subst hget
    exact ⟨beq_iff_eq.1 hparent, hne, hstatus⟩
  · rintro ⟨hparent, hne, hstatus⟩
    exact ⟨(id, s), ⟨Table.mem_select.2 ⟨hs, beq_iff_eq.2 hparent⟩, hne, hstatus⟩, rfl⟩

theorem acceptsAlone (db : QuotationDb) : AcceptsAlone db := by
  intro revisionId db' h
  simp only [acceptRevision, bind_eq_ok] at h
  obtain ⟨⟨q, r⟩, hread, h⟩ := h
  have hr := (revisionWithQuotation_eq_ok.1 hread).1
  refine ⟨r, hr, ?_⟩
  split at h
  · next haccepted =>
    cases h
    exact .inl ⟨haccepted, rfl⟩
  · simp only [bind_eq_ok, check_eq_ok, pure_eq_ok, foldl_supersede] at h
    obtain ⟨_, hsent, rfl⟩ := h
    refine .inr ⟨hsent, ?_⟩
    -- the row of a revision is superseded where it competes, and is otherwise the one of the acceptance
    have hrow : ∀ id s, db.revisions.get? id = some s → ((db.revisions.modify revisionId fun r =>
        { r with status := .accepted }).modifyAll ((competingRevisions db r.quotationId revisionId).map Prod.fst)
          fun r => { r with status := .superseded }).get? id =
        if s.quotationId = r.quotationId ∧ id ≠ revisionId ∧ s.status ∈ [.sent, .accepted, .submitted] then
          some { s with status := .superseded }
        else if id = revisionId then some { s with status := .accepted } else some s := by
      intro id s hs
      rw [Table.get?_modifyAll]
      case hf => exact fun _ => rfl
      simp only [mem_competingRevisions hs, Table.get?_modify, hs]
      split <;> split <;> simp_all
    refine ⟨?_, fun id s hs hne hparent => ?_, fun id s hs hparent => ?_, fun id hne => ?_, rfl⟩
    · refine (hrow revisionId r hr).trans ?_
      simp
    · refine (hrow id s hs).trans ?_
      by_cases hcompetes : s.status ∈ [.sent, .accepted, .submitted]
      · rw [if_pos ⟨hparent, hne, hcompetes⟩, if_pos hcompetes]
      · rw [if_neg fun hc => hcompetes hc.2.2, if_neg hne, if_neg hcompetes]
    · have hne : id ≠ revisionId := by
        rintro rfl
        rw [hr, Option.some.injEq] at hs
        exact hparent (hs ▸ rfl)
      refine (hrow id s hs).trans ?_
      rw [if_neg fun hc => hparent hc.1, if_neg hne]
    · exact Table.get?_modify_of_ne _ hne

/-- **The revisions of a quotation are numbered 1, …, n** after every run, where n is its current revision and
the one that an edit reaches; one of them at most is accepted, in the place of those that competed with it. -/
theorem revisions_numbered {db : QuotationDb} (hdb : RevisionsNumbered db) (as : List QuotationOperation) :
    RevisionsNumbered (run operationStep db as) ∧ EditsCurrent (run operationStep db as) ∧
      AcceptsAlone (run operationStep db as) := by
  have hreached : RevisionsNumbered (run operationStep db as) :=
    run_invariant RevisionsNumbered (fun _ a h => h.step a) as hdb
  exact ⟨hreached, hreached.editsCurrent, acceptsAlone _⟩

/-- A customer, a trade direction and a place role, and nothing quoted yet. -/
def office : QuotationDb where
  defaultCurrency := "USD"
  sequences := .empty
  parties := Table.empty.insert ⟨"Mekong Trading", true, false⟩
  directions := Table.empty.insert ⟨"IMPORT", "Import", false⟩
  transportTypes := .empty
  containerTypes := .empty
  feeTypes := .empty
  placeRoles := Table.empty.insert ⟨"PICKUP", "Pickup", true⟩
  quotations := .empty
  revisions := .empty
  containers := .empty
  places := .empty
  lines := .empty
  conversions := .empty
  orders := .empty
  orderPlaces := .empty
  requirements := .empty
  orderContainers := .empty
  pricings := .empty
  pricingLines := .empty

/-- A new quotation without children. -/
def offer : QuotationPayload :=
  { QuotationPayload.empty with
    customerPartyId := .value (.id 1)
    direction := .value "Import"
    date := .value january31 }

theorem office_numbered : RevisionsNumbered office := by
  refine ⟨fun id r hr => ?_, fun id q hq => ?_, fun id q hq => ?_, fun i j r s hr => ?_⟩
  · cases hr
  · cases hq
  · cases hq
  · cases hr

/-- Quoted, sent, quoted anew beside it, sent again and accepted. -/
def requoted : List QuotationOperation :=
  [.request (.save january offer), .request (.send 1), .request (.create january 1 .empty), .request (.send 2),
    .request (.accept 1)]

theorem revisions_numbered_requoted :
    RevisionsNumbered (run operationStep office requoted) ∧ EditsCurrent (run operationStep office requoted) ∧
      AcceptsAlone (run operationStep office requoted) :=
  revisions_numbered office_numbered requoted

example : (run operationStep office requoted).revisions.values.map (fun r => (r.revisionNo, r.status)) =
    [(1, .accepted), (2, .superseded)] := by decide +kernel

end LcsSystem
