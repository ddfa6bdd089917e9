import LcsSystem.Quotations.RevisionNumbers

/-!
# Requests as series of writes

Every request is a series of writes of eleven kinds (`QuotationWrite`), each with what its caller checked
before it. An invariant of the quotation tables is one of every operation as soon as the writes keep it
(`operationStep_invariant`).
-/

namespace LcsSystem
open Calendar Relational Checks

/-- A stored revision that is still a draft. -/
def IsDraft (db : QuotationDb) (revisionId : ℕ) : Prop :=
  ∃ r, db.revisions.get? revisionId = some r ∧ r.status = .draft

inductive QuotationWrite (db : QuotationDb) : QuotationDb → Prop
  /-- Quotations, and what a header refers to. -/
  | header (parties : Table CustomerParty) (directions : Table NamedRecord) (sequences : Table DocumentSequence)
      (quotations : Table Quotation) :
      QuotationWrite db { db with
        parties := parties, directions := directions, sequences := sequences, quotations := quotations }
  | conversions (conversions : Table QuotationConversion) : QuotationWrite db { db with conversions := conversions }
  | first (env : Env) (quotationId : ℕ) (quotationDate : Date) (validUntil : Option Date) (currency : Option String)
      (hcurrency : ∀ code ∈ currency, code ≠ "") :
      QuotationWrite db { db with
        revisions := db.revisions.insert (firstRevision env db quotationId quotationDate validUntil currency) }
  | copy (quotationId : ℕ) (source : ℕ × QuotationRevision) (userId : Option ℕ)
      (hsource : db.revisions.get? source.1 = some source.2) :
      QuotationWrite db (cloneRevision db quotationId source userId).1
  | dates {db' : QuotationDb} (revisionId : ℕ) (p : QuotationPayload) (hdraft : IsDraft db revisionId)
      (h : saveRevisionHeader db revisionId p = .ok db') : QuotationWrite db db'
  | containers {db' : QuotationDb} (revisionId : ℕ) (p : QuotationPayload) (hdraft : IsDraft db revisionId)
      (h : saveContainers db revisionId p = .ok db') : QuotationWrite db db'
  | route {db' : QuotationDb} (revisionId : ℕ) (p : QuotationPayload) (hdraft : IsDraft db revisionId)
      (h : savePlaces db revisionId p = .ok db') : QuotationWrite db db'
  | lines {db' : QuotationDb} (revisionId : ℕ) (p : QuotationPayload) (hdraft : IsDraft db revisionId)
      (h : savePricingLines db revisionId p = .ok db') : QuotationWrite db db'
  /-- No revision becomes a draft again. -/
  | status (revisionId : ℕ) (status : RevisionStatus) (hleft : status ≠ .draft) :
      QuotationWrite db (setRevisionStatus db revisionId status)
  | order {db' : QuotationDb} (env : Env) (quotation : Quotation) (revision : ℕ × QuotationRevision) (orderId : ℕ)
      (hrevision : db.revisions.get? revision.1 = some revision.2) (hleft : revision.2.status ≠ .draft)
      (h : createServiceOrderFromQuotation env db quotation revision = .ok (db', orderId)) : QuotationWrite db db'
  | remove (quotationId : ℕ) (horders : ∀ o ∈ db.orders.values, ∀ revisionId ∈ o.quotationRevisionId,
        ∀ r ∈ db.revisions.get? revisionId, r.quotationId ≠ quotationId) :
      QuotationWrite db (removeQuotation db quotationId)

/-- One write after the other. -/
abbrev QuotationWrites : QuotationDb → QuotationDb → Prop := Relation.ReflTransGen QuotationWrite

section
variable {env : Env} {db db' : QuotationDb} {p : QuotationPayload} {quotationId revisionId : ℕ}

theorem QuotationWrite.quotations (db : QuotationDb) (quotations : Table Quotation) :
    QuotationWrite db { db with quotations := quotations } :=
  .header db.parties db.directions db.sequences quotations

theorem editableRevision_writes (h : editableRevision env db p quotationId = (db', revisionId)) :
    QuotationWrites db db' ∧ IsDraft db' revisionId := by
  unfold editableRevision at h
  cases hlatest : latestRevision db quotationId with
  | none =>
    simp only [hlatest, Prod.mk.injEq] at h
    obtain ⟨rfl, rfl⟩ := h
    refine ⟨.single (.first env quotationId _ _ _ fun _ hcode => (text_get?_eq_some hcode).2), _,
      Table.get?_insert_self _ _, ?_⟩
    rfl
  | some latest =>
    have hget := (latestRevision_eq_some hlatest).1
    simp only [hlatest] at h
    split at h
    · simp only [Prod.mk.injEq] at h
      obtain ⟨rfl, rfl⟩ := h
      refine ⟨.tail (.single (.copy quotationId latest env.userId hget)) (.quotations _ _), _,
        Table.get?_insert_self _ _, ?_⟩
      rfl
    · next hmutable =>
      simp only [Prod.mk.injEq] at h
      obtain ⟨rfl, rfl⟩ := h
      have hdraft := RevisionStatus.isImmutable_eq_false.1 (Bool.eq_false_of_not_eq_true hmutable)
      exact ⟨.refl, latest.2, hget, hdraft⟩

/-- A table that a write leaves alone. -/
theorem IsDraft.congr (h : IsDraft db revisionId) (hrevisions : db'.revisions = db.revisions) : IsDraft db' revisionId := by
  obtain ⟨r, hr, hdraft⟩ := h
  exact ⟨r, hrevisions ▸ hr, hdraft⟩

theorem saveQuotation_writes (h : saveQuotation env db p = .ok (db', quotationId, revisionId)) :
    QuotationWrites db db' := by
  obtain ⟨headed, opened, dated, saved, hheaded, hopened, hdated, hsaved, rfl⟩ := saveQuotation_steps h
  obtain ⟨parties, directions, sequences, quotations, rfl, -⟩ := quotationOf_spec hheaded
  obtain ⟨hopening, hopen⟩ := editableRevision_writes hopened
  have hdraft : IsDraft dated revisionId := by
    simp only [saveRevisionHeader, bind_eq_ok, pure_eq_ok] at hdated
    obtain ⟨_, -, rfl⟩ := hdated
    obtain ⟨r, hr, hdraft⟩ := hopen
    exact ⟨r.withHeader p, by rw [Table.get?_modify_self, hr, Option.map_some], hdraft⟩
  simp only [saveRevisionChildren, bind_eq_ok] at hsaved
  obtain ⟨boxed, hboxed, routed, hrouted, hlines⟩ := hsaved
  have hboxedDraft : IsDraft boxed revisionId := by
    obtain ⟨types, containers, rfl⟩ := saveContainers_spec hboxed
    exact hdraft.congr rfl
  have hroutedDraft : IsDraft routed revisionId := by
    obtain ⟨places, rfl⟩ := savePlaces_spec hrouted
    exact hboxedDraft.congr rfl
  have hheader : QuotationWrites db { db with
      parties := parties, directions := directions, sequences := sequences, quotations := quotations } :=
    .single (.header parties directions sequences quotations)
  exact ((((((hheader.trans hopening).tail (.dates revisionId p hopen hdated)).tail
    (.containers revisionId p hdraft hboxed)).tail (.route revisionId p hboxedDraft hrouted)).tail
    (.lines revisionId p hroutedDraft hlines)).tail (.quotations _ _))

theorem createRevision_writes (h : createRevision env db quotationId p = .ok (db', revisionId)) :
    QuotationWrites db db' := by
  simp only [createRevision, bind_eq_ok] at h
  obtain ⟨_, -, _, -, h⟩ := h
  cases hlatest : latestRevision db quotationId with
  | none =>
    simp only [hlatest, pure_eq_ok, Prod.mk.injEq] at h
    obtain ⟨rfl, -⟩ := h
    have hfirst : QuotationWrites db { db with
        revisions := db.revisions.insert (firstRevision env db quotationId env.today none p.currency.text.get?) } :=
      .single (.first env quotationId _ _ _ fun _ hcode => (text_get?_eq_some hcode).2)
    exact hfirst.tail (.quotations _ _)
  | some latest =>
    simp only [hlatest, pure_eq_ok, Prod.mk.injEq] at h
    obtain ⟨rfl, -⟩ := h
    exact .tail (.single (.copy quotationId latest env.userId (latestRevision_eq_some hlatest).1)) (.quotations _ _)

theorem setStatuses_writes (db : QuotationDb) (revisionId quotationId : ℕ) {status : RevisionStatus}
    (hleft : status ≠ .draft) :
    QuotationWrites db (setQuotationStatus (setRevisionStatus db revisionId status) quotationId status) :=
  .tail (.single (.status revisionId status hleft)) (.quotations _ _)

theorem issueRevision_writes {verb : String} {status : RevisionStatus} {done : List RevisionStatus}
    (hleft : status ≠ .draft) (h : issueRevision verb status done db revisionId = .ok db') : QuotationWrites db db' := by
  simp only [issueRevision, bind_eq_ok] at h
  obtain ⟨_, -, h⟩ := h
  split at h
  · cases h
    exact .refl
  · simp only [bind_eq_ok, pure_eq_ok] at h
    obtain ⟨_, -, rfl⟩ := h
    exact setStatuses_writes db revisionId _ hleft

theorem acceptRevision_writes (h : acceptRevision db revisionId = .ok db') : QuotationWrites db db' := by
  simp only [acceptRevision, bind_eq_ok] at h
  obtain ⟨_, -, h⟩ := h
  split at h
  · cases h
    exact .refl
  · simp only [bind_eq_ok, pure_eq_ok] at h
    obtain ⟨_, -, rfl⟩ := h
    exact List.foldlRecOn _ _ (setStatuses_writes db revisionId _ (by decide)) fun d hd other _ =>
      hd.tail (.status other.1 .superseded (by decide))

theorem withdrawRevision_writes {verb : String} {status : RevisionStatus} (hleft : status ≠ .draft)
    (h : withdrawRevision verb status db revisionId = .ok db') : QuotationWrites db db' := by
  simp only [withdrawRevision, bind_eq_ok] at h
  obtain ⟨_, -, h⟩ := h
  split at h
  · cases h
    exact .refl
  · rw [bind_eq_ok] at h
    obtain ⟨_, -, h⟩ := h
    split at h
    · cases h
      exact setStatuses_writes db revisionId _ hleft
    · cases h
      exact .single (.status revisionId status hleft)

theorem convertRevision_writes {orderId : ℕ} {idempotencyKey : Option String}
    (h : convertRevision env db revisionId idempotencyKey = .ok (db', orderId)) : QuotationWrites db db' := by
  unfold convertRevision at h
  split at h
  · simp only [bind_eq_ok, pure_eq_ok, Prod.mk.injEq] at h
    obtain ⟨_, -, rfl, -⟩ := h
    exact .refl
  · simp only [convertNew, bind_eq_ok, check_eq_ok, pure_eq_ok, Prod.mk.injEq] at h
    obtain ⟨⟨q, r⟩, hread, _, -, _, hstatus, ⟨ordered, order⟩, hordered, _, -, rfl, -⟩ := h
    have hleft : r.status ≠ .draft := by
      intro hdraft
      simp [hdraft] at hstatus
    have hordering : QuotationWrites db ordered :=
      .single (.order env q (revisionId, r) order (revisionWithQuotation_eq_ok.1 hread).1 hleft hordered)
    exact (hordering.tail (.conversions _)).trans (setStatuses_writes _ revisionId _ (by decide))

theorem deleteQuotations_writes {ids : List ℕ} (h : deleteQuotations db ids = .ok db') : QuotationWrites db db' := by
  refine foldlM_relation QuotationWrites (fun _ => .refl) (fun hab hbc => hab.trans hbc) ?_ h
  intro a id b hturn
  unfold deleteQuotation at hturn
  split at hturn
  · cases hturn
    exact .refl
  · simp only [bind_eq_ok, check_eq_ok, pure_eq_ok] at hturn
    obtain ⟨_, -, _, -, _, horders, rfl⟩ := hturn
    exact .tail (.single (.conversions _)) (.remove id horders)

/-- **Every operation is a series of writes.** -/
theorem operationStep_writes (db : QuotationDb) (a : QuotationOperation) : QuotationWrites db (operationStep db a) := by
  cases a with
  | delete ids =>
    simp only [operationStep]
    cases hdelete : deleteQuotations db ids with
    | error e => exact .refl
    | ok db' => exact deleteQuotations_writes hdelete
  | request a =>
    simp only [operationStep, quotationStep]
    cases hrequest : a.request db with
    | error e => exact .refl
    | ok db' =>
      simp only [orKeep]
      cases a with
      | save env p =>
        simp only [QuotationAction.request, map_eq_ok] at hrequest
        obtain ⟨⟨db₁, quotationId, revisionId⟩, hsave, rfl⟩ := hrequest
        exact saveQuotation_writes hsave
      | create env quotationId p =>
        simp only [QuotationAction.request, map_eq_ok] at hrequest
        obtain ⟨⟨db₁, revisionId⟩, hcreate, rfl⟩ := hrequest
        exact createRevision_writes hcreate
      | send revisionId => exact issueRevision_writes (by decide) hrequest
      | submit revisionId => exact issueRevision_writes (by decide) hrequest
      | accept revisionId => exact acceptRevision_writes hrequest
      | reject revisionId => exact withdrawRevision_writes (by decide) hrequest
      | cancel revisionId => exact withdrawRevision_writes (by decide) hrequest
      | convert env revisionId idempotencyKey =>
        simp only [QuotationAction.request, map_eq_ok] at hrequest
        obtain ⟨⟨db₁, orderId⟩, hconvert, rfl⟩ := hrequest
        exact convertRevision_writes hconvert

end

theorem QuotationWrites.invariant {P : QuotationDb → Prop} (hP : ∀ db db', P db → QuotationWrite db db' → P db')
    {db db' : QuotationDb} (h : P db) (hwrites : QuotationWrites db db') : P db' := by
  induction hwrites with
  | refl => exact h
  | tail _ hwrite ih => exact hP _ _ ih hwrite

/-- **An invariant of the writes** is one of the operations. -/
theorem operationStep_invariant {P : QuotationDb → Prop} (hP : ∀ db db', P db → QuotationWrite db db' → P db')
    {db : QuotationDb} (h : P db) (a : QuotationOperation) : P (operationStep db a) :=
  QuotationWrites.invariant hP h (operationStep_writes db a)

end LcsSystem
