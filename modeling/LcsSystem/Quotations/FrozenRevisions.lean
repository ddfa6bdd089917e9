import LcsSystem.Lib.Transition
import LcsSystem.Quotations.Conversion

/-!
# Frozen revisions

Eight requests write the revisions of a quotation and their children. What keeps a revision frozen once it
has left DRAFT is that each of them reaches one revision only: a save the latest one where it is a draft, or
a copy that it has just inserted; the others a status. `SameRevision` says that a write passed a revision by;
`frozen_revisions` is the result over runs.
-/

namespace LcsSystem
open Relational Checks Transition

/-! ## Runs -/

/-- A request, with the clock and caller it runs under. -/
inductive QuotationAction
  | save (env : Env) (p : QuotationPayload)
  | create (env : Env) (quotationId : ℕ) (p : QuotationPayload)
  | send (revisionId : ℕ)
  | submit (revisionId : ℕ)
  | accept (revisionId : ℕ)
  | reject (revisionId : ℕ)
  | cancel (revisionId : ℕ)
  | convert (env : Env) (revisionId : ℕ) (idempotencyKey : Option String)

def QuotationAction.request (db : QuotationDb) : QuotationAction → Result QuotationDb
  | .save env p => Prod.fst <$> saveQuotation env db p
  | .create env quotationId p => Prod.fst <$> createRevision env db quotationId p
  | .send revisionId => sendRevision db revisionId
  | .submit revisionId => submitRevision db revisionId
  | .accept revisionId => acceptRevision db revisionId
  | .reject revisionId => rejectRevision db revisionId
  | .cancel revisionId => cancelRevision db revisionId
  | .convert env revisionId idempotencyKey => Prod.fst <$> convertRevision env db revisionId idempotencyKey

def quotationStep (db : QuotationDb) (a : QuotationAction) : QuotationDb := orKeep db (a.request db)

/-! ## Writes that pass a revision by -/

/-- The revision and its three child collections, with the keys of their rows, are as they were. -/
structure SameRevision (id : ℕ) (db db' : QuotationDb) : Prop where
  revision : db'.revisions.get? id = db.revisions.get? id
  containers : db'.containersOf id = db.containersOf id
  places : db'.placesOf id = db.placesOf id
  lines : db'.linesOf id = db.linesOf id

namespace SameRevision
variable {id : ℕ} {db db₁ db₂ : QuotationDb}

theorem refl (id : ℕ) (db : QuotationDb) : SameRevision id db db := ⟨rfl, rfl, rfl, rfl⟩

theorem trans (h₁ : SameRevision id db db₁) (h₂ : SameRevision id db₁ db₂) : SameRevision id db db₂ where
  revision := h₂.revision.trans h₁.revision
  containers := h₂.containers.trans h₁.containers
  places := h₂.places.trans h₁.places
  lines := h₂.lines.trans h₁.lines

/-- The four tables decide. -/
theorem of_tables (hr : db₁.revisions = db.revisions) (hc : db₁.containers = db.containers)
    (hp : db₁.places = db.places) (hl : db₁.lines = db.lines) : SameRevision id db db₁ where
  revision := by rw [hr]
  containers := by rw [QuotationDb.containersOf, QuotationDb.containersOf, hc]
  places := by rw [QuotationDb.placesOf, QuotationDb.placesOf, hp]
  lines := by rw [QuotationDb.linesOf, QuotationDb.linesOf, hl]

end SameRevision

theorem customerOf_spec {db db' : QuotationDb} {reference : Option Reference} {name : Option String} {partyId : ℕ}
    (h : customerOf db reference name = .ok (db', partyId)) : ∃ parties, db' = { db with parties := parties } := by
  unfold customerOf at h
  split at h
  · simp only [bind_eq_ok, pure_eq_ok, Prod.mk.injEq] at h
    obtain ⟨_, -, rfl, -⟩ := h
    exact ⟨db.parties, rfl⟩
  · unfold resolvePartyByName at h
    split at h
    · cases h
      exact ⟨db.parties, rfl⟩
    · cases h
      exact ⟨_, rfl⟩

theorem resolveDirection_spec {db db' : QuotationDb} {name : Option String} {directionId : ℕ}
    (h : resolveDirection db name = .ok (db', directionId)) : ∃ directions, db' = { db with directions := directions } := by
  unfold resolveDirection at h
  split at h
  · simp only [bind_eq_ok, pure_eq_ok, Prod.mk.injEq] at h
    obtain ⟨_, -, rfl, -⟩ := h
    exact ⟨db.directions, rfl⟩
  · split at h
    · cases h
      exact ⟨db.directions, rfl⟩
    · cases h
      exact ⟨_, rfl⟩

/-- The header of a save: an update of the stored quotation, or a new one. -/
theorem quotationOf_spec {env : Env} {db db' : QuotationDb} {p : QuotationPayload} {quotationId : ℕ}
    (h : quotationOf env db p = .ok (db', quotationId)) :
    ∃ parties directions sequences quotations,
      db' = { db with parties := parties, directions := directions, sequences := sequences, quotations := quotations } ∧
      ((∃ q partyId directionId, storedQuotation db p = some (quotationId, q) ∧
          quotations = db.quotations.modify quotationId fun _ => { q with
            customerPartyId := partyId
            tradeDirectionId := directionId
            status := normalizeStatus p.status.text.get? q.status }) ∨
        storedQuotation db p = none ∧ quotationId = db.quotations.nextId ∧ ∃ q : Quotation,
          q.currentRevisionNo = 1 ∧ q.status = normalizeStatus p.status.text.get? "DRAFT" ∧
            quotations = db.quotations.insert q) := by
  unfold quotationOf at h
  split at h
  · next id quotation hstored =>
    simp only [updateQuotation, bind_eq_ok, pure_eq_ok, Prod.mk.injEq] at h
    obtain ⟨⟨db₁, partyId⟩, hparty, ⟨db₂, directionId⟩, hdirection, rfl, rfl⟩ := h
    have h₁ : ∃ parties, db₁ = { db with parties := parties } := by
      unfold reassignedParty at hparty
      split at hparty
      · exact customerOf_spec hparty
      · cases hparty
        exact ⟨db.parties, rfl⟩
    have h₂ : ∃ directions, db₂ = { db₁ with directions := directions } := by
      unfold reassignedDirection at hdirection
      split at hdirection
      · exact resolveDirection_spec hdirection
      · cases hdirection
        exact ⟨db₁.directions, rfl⟩
    obtain ⟨parties, rfl⟩ := h₁
    obtain ⟨directions, rfl⟩ := h₂
    exact ⟨_, _, _, _, rfl, .inl ⟨quotation, partyId, directionId, hstored, rfl⟩⟩
  · next hstored =>
    simp only [createQuotation, bind_eq_ok, check_eq_ok, pure_eq_ok, Prod.mk.injEq] at h
    obtain ⟨_, -, _, -, _, -, ⟨db₁, partyId⟩, hparty, ⟨db₂, directionId⟩, hdirection, _, -, rfl, rfl⟩ := h
    obtain ⟨parties, rfl⟩ := customerOf_spec hparty
    obtain ⟨directions, rfl⟩ := resolveDirection_spec hdirection
    exact ⟨_, _, _, _, rfl, .inr ⟨hstored, rfl, _, rfl, rfl, rfl⟩⟩

theorem quotationOf_same {env : Env} {db db' : QuotationDb} {p : QuotationPayload} {quotationId : ℕ}
    (h : quotationOf env db p = .ok (db', quotationId)) (id : ℕ) : SameRevision id db db' := by
  obtain ⟨parties, directions, sequences, quotations, rfl, -⟩ := quotationOf_spec h
  exact .of_tables rfl rfl rfl rfl

theorem modifyQuotation_same (db : QuotationDb) (quotationId : ℕ) (f : Quotation → Quotation) (id : ℕ) :
    SameRevision id db (modifyQuotation db quotationId f) := .of_tables rfl rfl rfl rfl

/-! ## The children of one revision -/

section
variable {db db' : QuotationDb} {revisionId id : ℕ} {p : QuotationPayload}

theorem saveContainers_same (hne : id ≠ revisionId) (h : saveContainers db revisionId p = .ok db') :
    SameRevision id db db' := by
  unfold saveContainers at h
  split at h
  · rw [bind_eq_ok] at h
    obtain ⟨rows, -, hrows⟩ := h
    have hcleared : SameRevision id db
        { db with containers := db.containers.erase fun _ c => c.quotationRevisionId == revisionId } := by
      have hkept : ((db.containers.erase fun _ c => c.quotationRevisionId == revisionId).select fun c =>
          c.quotationRevisionId == id) = db.containersOf id := by
        refine Table.select_erase_of_not fun _ c _ hc => ?_
        rw [beq_iff_eq.1 hc]
        exact beq_false_of_ne hne
      exact { SameRevision.refl id db with containers := hkept }
    refine hcleared.trans (foldlM_relation (SameRevision id) (.refl id) SameRevision.trans ?_ hrows)
    intro a c b hinsert
    simp only [insertContainer, bind_eq_ok, pure_eq_ok] at hinsert
    obtain ⟨⟨types, typeId⟩, -, quantity, -, weight, -, rfl⟩ := hinsert
    refine { SameRevision.refl id a with containers := ?_ }
    exact Table.select_insert_of_not _ (beq_false_of_ne hne.symm)
  · cases h
    exact .refl id db

theorem savePlaces_same (hne : id ≠ revisionId) (h : savePlaces db revisionId p = .ok db') :
    SameRevision id db db' := by
  unfold savePlaces at h
  split at h
  · simp only [bind_eq_ok, pure_eq_ok] at h
    obtain ⟨places, hplaces, rfl⟩ := h
    exact { SameRevision.refl id db with places := saveRouteStops_others hne hplaces }
  · cases h
    exact .refl id db

theorem pricedRowsFrom_parent {lineNo : ℕ} {ls : List PricedLine} {rows : List QuotationRevisionLine}
    (h : pricedRowsFrom revisionId lineNo ls = .ok rows) : ∀ row ∈ rows, row.quotationRevisionId = revisionId := by
  induction ls generalizing lineNo rows with
  | nil => cases h; simp
  | cons l ls ih =>
    simp only [pricedRowsFrom, bind_eq_ok, pure_eq_ok] at h
    obtain ⟨row, hrow, rows, hrows, rfl⟩ := h
    simp only [PricedLine.row, bind_eq_ok, pure_eq_ok] at hrow
    obtain ⟨_, -, _, -, _, -, _, -, _, -, _, -, _, -, _, -, rfl⟩ := hrow
    exact List.forall_mem_cons.2 ⟨rfl, ih hrows⟩

theorem savePricingLines_same (hne : id ≠ revisionId) (h : savePricingLines db revisionId p = .ok db') :
    SameRevision id db db' := by
  unfold savePricingLines at h
  split at h
  · cases h
    exact .refl id db
  · simp only [bind_eq_ok, pure_eq_ok] at h
    obtain ⟨payloads, -, priced, -, rows, hrows, amounts, -, rfl⟩ := h
    refine { SameRevision.refl id db with revision := Table.get?_modify_of_ne _ hne, lines := ?_ }
    refine (Table.select_insertAll_of_not _ fun row hrow => ?_).trans
      (Table.select_erase_of_not fun _ l _ hl => ?_)
    · rw [pricedRowsFrom_parent hrows row hrow]
      exact beq_false_of_ne hne.symm
    · rw [beq_iff_eq.1 hl]
      exact beq_false_of_ne hne

/-- **The children of a revision** are written without touching another revision's. -/
theorem saveRevisionChildren_same (hne : id ≠ revisionId) (h : saveRevisionChildren db revisionId p = .ok db') :
    SameRevision id db db' := by
  simp only [saveRevisionChildren, bind_eq_ok] at h
  obtain ⟨db₁, hcontainers, db₂, hplaces, hlines⟩ := h
  exact ((saveContainers_same hne hcontainers).trans (savePlaces_same hne hplaces)).trans
    (savePricingLines_same hne hlines)

theorem saveRevisionHeader_same (hne : id ≠ revisionId) (h : saveRevisionHeader db revisionId p = .ok db') :
    SameRevision id db db' := by
  simp only [saveRevisionHeader, bind_eq_ok, pure_eq_ok] at h
  obtain ⟨_, -, rfl⟩ := h
  exact { SameRevision.refl id db with revision := Table.get?_modify_of_ne _ hne }

end

/-! ## New revisions -/

theorem insertRevision_same {db : QuotationDb} {r : QuotationRevision} {id : ℕ} (hne : id ≠ db.revisions.nextId) :
    SameRevision id db { db with revisions := db.revisions.insert r } :=
  { SameRevision.refl id db with revision := (Table.get?_insert _ _ _).trans (if_neg hne) }

/-- The copy and its children come beside the source's. -/
theorem cloneRevision_same {db : QuotationDb} {quotationId : ℕ} {source : ℕ × QuotationRevision} {userId : Option ℕ}
    {id : ℕ} (hne : id ≠ db.revisions.nextId) : SameRevision id db (cloneRevision db quotationId source userId).1 where
  revision := (Table.get?_insert _ _ _).trans (if_neg hne)
  containers := by
    refine Table.select_insertAll_of_not _ fun c hc => ?_
    obtain ⟨_, -, rfl⟩ := List.mem_map.1 hc
    exact beq_false_of_ne hne.symm
  places := by
    refine Table.select_insertAll_of_not _ fun p hp => ?_
    obtain ⟨_, -, rfl⟩ := List.mem_map.1 hp
    exact beq_false_of_ne hne.symm
  lines := by
    refine Table.select_insertAll_of_not _ fun l hl => ?_
    obtain ⟨_, -, rfl⟩ := List.mem_map.1 hl
    exact beq_false_of_ne hne.symm

/-- A save writes a stored draft, or a revision that it has just inserted. -/
theorem editableRevision_spec {env : Env} {db db' : QuotationDb} {p : QuotationPayload} {quotationId revisionId : ℕ}
    (h : editableRevision env db p quotationId = (db', revisionId)) :
    (∃ r, db.revisions.get? revisionId = some r ∧ r.status = .draft ∧ db' = db) ∨
      revisionId = db.revisions.nextId ∧ ∀ id, id ≠ revisionId → SameRevision id db db' := by
  unfold editableRevision at h
  cases hlatest : latestRevision db quotationId with
  | none =>
    simp only [hlatest, Prod.mk.injEq] at h
    obtain ⟨rfl, rfl⟩ := h
    exact .inr ⟨rfl, fun id hne => insertRevision_same hne⟩
  | some latest =>
    simp only [hlatest] at h
    by_cases himmutable : latest.2.status.isImmutable = true
    · simp only [himmutable, if_true, Prod.mk.injEq] at h
      obtain ⟨rfl, rfl⟩ := h
      exact .inr ⟨rfl, fun id hne => (cloneRevision_same hne).trans (modifyQuotation_same _ _ _ id)⟩
    · simp only [himmutable, Bool.false_eq_true, if_false, Prod.mk.injEq] at h
      obtain ⟨rfl, rfl⟩ := h
      have hdraft := RevisionStatus.isImmutable_eq_false.1 (Bool.eq_false_of_not_eq_true himmutable)
      exact .inl ⟨latest.2, (latestRevision_eq_some hlatest).1, hdraft, rfl⟩

/-! ## What stays of a revision that has left DRAFT -/

/-- A revision that has left DRAFT keeps everything but its status, with its three child collections, and
does not come back to DRAFT. -/
def TermsFrozen (db db' : QuotationDb) : Prop :=
  ∀ id r, db.revisions.get? id = some r → r.status ≠ .draft →
    (∃ status, status ≠ .draft ∧ db'.revisions.get? id = some { r with status := status }) ∧
      db'.containersOf id = db.containersOf id ∧ db'.placesOf id = db.placesOf id ∧ db'.linesOf id = db.linesOf id

namespace TermsFrozen

theorem refl (db : QuotationDb) : TermsFrozen db db := fun _ r hr hleft => ⟨⟨r.status, hleft, hr⟩, rfl, rfl, rfl⟩

theorem trans {db db₁ db₂ : QuotationDb} (h₁ : TermsFrozen db db₁) (h₂ : TermsFrozen db₁ db₂) :
    TermsFrozen db db₂ := by
  intro id r hr hleft
  obtain ⟨⟨status, hstatus, hr₁⟩, hcontainers, hplaces, hlines⟩ := h₁ id r hr hleft
  obtain ⟨hstatus₂, hcontainers₂, hplaces₂, hlines₂⟩ := h₂ id _ hr₁ hstatus
  exact ⟨hstatus₂, hcontainers₂.trans hcontainers, hplaces₂.trans hplaces, hlines₂.trans hlines⟩

theorem of_same {db db' : QuotationDb}
    (h : ∀ id r, db.revisions.get? id = some r → r.status ≠ .draft → SameRevision id db db') : TermsFrozen db db' := by
  intro id r hr hleft
  have hsame := h id r hr hleft
  exact ⟨⟨r.status, hleft, hsame.revision.trans hr⟩, hsame.containers, hsame.places, hsame.lines⟩

/-- A status other than DRAFT is set. -/
theorem setRevisionStatus (db : QuotationDb) (revisionId : ℕ) {status : RevisionStatus} (h : status ≠ .draft) :
    TermsFrozen db (setRevisionStatus db revisionId status) := by
  intro id r hr hleft
  refine ⟨?_, rfl, rfl, rfl⟩
  by_cases hid : id = revisionId
  · subst hid
    exact ⟨status, h, by rw [LcsSystem.setRevisionStatus, Table.get?_modify_self, hr]; rfl⟩
  · exact ⟨r.status, hleft, (Table.get?_modify_of_ne _ hid).trans hr⟩

theorem setQuotationStatus (db : QuotationDb) (quotationId : ℕ) (status : RevisionStatus) :
    TermsFrozen db (setQuotationStatus db quotationId status) :=
  of_same fun id _ _ _ => modifyQuotation_same db quotationId _ id

end TermsFrozen

/-- A revision that has left DRAFT is not the one that is written. -/
theorem ne_of_left_draft {db : QuotationDb} {id revisionId : ℕ} {r : QuotationRevision}
    (hr : db.revisions.get? id = some r) (hleft : r.status ≠ .draft)
    (h : (∃ d, db.revisions.get? revisionId = some d ∧ d.status = .draft) ∨ revisionId = db.revisions.nextId) :
    id ≠ revisionId := by
  rintro rfl
  rcases h with ⟨d, hd, hdraft⟩ | rfl
  · rw [hr, Option.some.injEq] at hd
    exact hleft (hd ▸ hdraft)
  · simp at hr

/-! ## The requests -/

/-- The steps of a save, from the header to the children of the revision that it writes. -/
theorem saveQuotation_steps {env : Env} {db db' : QuotationDb} {p : QuotationPayload} {quotationId revisionId : ℕ}
    (h : saveQuotation env db p = .ok (db', quotationId, revisionId)) :
    ∃ headed opened dated saved, quotationOf env db p = .ok (headed, quotationId) ∧
      editableRevision env headed p quotationId = (opened, revisionId) ∧
      saveRevisionHeader opened revisionId p = .ok dated ∧ saveRevisionChildren dated revisionId p = .ok saved ∧
      db' = modifyQuotation saved quotationId fun q => { q with data := q.data.merge p } := by
  simp only [saveQuotation, bind_eq_ok, pure_eq_ok] at h
  obtain ⟨_, -, ⟨headed, quotationId'⟩, hheaded, h⟩ := h
  cases hopened : editableRevision env headed p quotationId' with
  | mk opened revisionId' =>
    simp only [hopened, Prod.mk.injEq] at h
    obtain ⟨dated, hdated, saved, hsaved, rfl, rfl, rfl⟩ := h
    exact ⟨headed, opened, dated, saved, hheaded, hopened, hdated, hsaved, rfl⟩

/-- A save reaches one revision: a stored draft, or one that it has just inserted. -/
theorem saveQuotation_same {env : Env} {db db' : QuotationDb} {p : QuotationPayload} {quotationId revisionId : ℕ}
    (h : saveQuotation env db p = .ok (db', quotationId, revisionId)) :
    ((∃ d, db.revisions.get? revisionId = some d ∧ d.status = .draft) ∨ revisionId = db.revisions.nextId) ∧
      ∀ id, id ≠ revisionId → SameRevision id db db' := by
  obtain ⟨headed, opened, dated, saved, hheaded, hopened, hdated, hsaved, rfl⟩ := saveQuotation_steps h
  have hrevisions : headed.revisions = db.revisions := by
    obtain ⟨parties, directions, sequences, quotations, rfl, -⟩ := quotationOf_spec hheaded
    rfl
  have hspec := editableRevision_spec hopened
  rw [hrevisions] at hspec
  constructor
  · rcases hspec with ⟨d, hd, hdraft, -⟩ | ⟨hnew, -⟩
    · exact .inl ⟨d, hd, hdraft⟩
    · exact .inr hnew
  · intro id hne
    have hwritten : SameRevision id headed opened := by
      rcases hspec with ⟨_, -, -, rfl⟩ | ⟨-, hsame⟩
      · exact .refl id _
      · exact hsame id hne
    exact ((((quotationOf_same hheaded id).trans hwritten).trans (saveRevisionHeader_same hne hdated)).trans
      (saveRevisionChildren_same hne hsaved)).trans (modifyQuotation_same _ _ _ id)

theorem saveQuotation_frozen {env : Env} {db db' : QuotationDb} {p : QuotationPayload} {ids : ℕ × ℕ}
    (h : saveQuotation env db p = .ok (db', ids)) : TermsFrozen db db' := by
  obtain ⟨hwritten, hsame⟩ := saveQuotation_same h
  exact TermsFrozen.of_same fun id r hr hleft => hsame id (ne_of_left_draft hr hleft hwritten)

theorem createRevision_frozen {env : Env} {db db' : QuotationDb} {quotationId revisionId : ℕ} {p : QuotationPayload}
    (h : createRevision env db quotationId p = .ok (db', revisionId)) : TermsFrozen db db' := by
  refine TermsFrozen.of_same fun id r hr hleft => ?_
  have hne : id ≠ db.revisions.nextId := ne_of_left_draft hr hleft (.inr rfl)
  simp only [createRevision, bind_eq_ok] at h
  obtain ⟨_, -, _, -, h⟩ := h
  cases hlatest : latestRevision db quotationId with
  | none =>
    simp only [hlatest, pure_eq_ok, Prod.mk.injEq] at h
    obtain ⟨rfl, -⟩ := h
    exact (insertRevision_same hne).trans (modifyQuotation_same _ _ _ id)
  | some latest =>
    simp only [hlatest, pure_eq_ok, Prod.mk.injEq] at h
    obtain ⟨rfl, -⟩ := h
    exact (cloneRevision_same hne).trans (modifyQuotation_same _ _ _ id)

theorem issueRevision_frozen {verb : String} {status : RevisionStatus} {done : List RevisionStatus}
    {db db' : QuotationDb} {revisionId : ℕ} (hstatus : status ≠ .draft)
    (h : issueRevision verb status done db revisionId = .ok db') : TermsFrozen db db' := by
  simp only [issueRevision, bind_eq_ok] at h
  obtain ⟨⟨quotation, revision⟩, -, h⟩ := h
  split at h
  · cases h
    exact .refl db
  · simp only [bind_eq_ok, pure_eq_ok] at h
    obtain ⟨_, -, rfl⟩ := h
    exact (TermsFrozen.setRevisionStatus db revisionId hstatus).trans (.setQuotationStatus _ _ _)

theorem acceptRevision_frozen {db db' : QuotationDb} {revisionId : ℕ} (h : acceptRevision db revisionId = .ok db') :
    TermsFrozen db db' := by
  simp only [acceptRevision, bind_eq_ok] at h
  obtain ⟨⟨quotation, revision⟩, -, h⟩ := h
  split at h
  · cases h
    exact .refl db
  · simp only [bind_eq_ok, pure_eq_ok] at h
    obtain ⟨_, -, rfl⟩ := h
    have hother : ∀ (db : QuotationDb) (other : ℕ × QuotationRevision),
        TermsFrozen db (setRevisionStatus db other.1 .superseded) := by
      intro db other
      exact .setRevisionStatus db other.1 (by decide)
    exact ((TermsFrozen.setRevisionStatus db revisionId (by decide)).trans (.setQuotationStatus _ _ _)).trans
      (run_relation TermsFrozen .refl TermsFrozen.trans hother _ _)

theorem withdrawRevision_frozen {verb : String} {status : RevisionStatus} {db db' : QuotationDb} {revisionId : ℕ}
    (hstatus : status ≠ .draft) (h : withdrawRevision verb status db revisionId = .ok db') : TermsFrozen db db' := by
  simp only [withdrawRevision, bind_eq_ok] at h
  obtain ⟨⟨quotation, revision⟩, -, h⟩ := h
  split at h
  · cases h
    exact .refl db
  · rw [bind_eq_ok] at h
    obtain ⟨_, -, h⟩ := h
    have hset := TermsFrozen.setRevisionStatus db revisionId hstatus
    split at h
    · cases h
      exact hset.trans (.setQuotationStatus _ _ _)
    · cases h
      exact hset

theorem convertRevision_frozen {env : Env} {db db' : QuotationDb} {revisionId orderId : ℕ}
    {idempotencyKey : Option String} (h : convertRevision env db revisionId idempotencyKey = .ok (db', orderId)) :
    TermsFrozen db db' := by
  unfold convertRevision at h
  split at h
  · simp only [bind_eq_ok, pure_eq_ok, Prod.mk.injEq] at h
    obtain ⟨_, -, rfl, -⟩ := h
    exact .refl db
  · simp only [convertNew, createServiceOrderFromQuotation, bind_eq_ok, pure_eq_ok, Prod.mk.injEq] at h
    obtain ⟨⟨quotation, revision⟩, -, _, -, _, -, ⟨ordered, order⟩, ⟨_, -, rfl, rfl⟩, _, -, rfl, -⟩ := h
    refine TermsFrozen.trans ?_ ((TermsFrozen.setRevisionStatus _ revisionId (by decide)).trans
      (.setQuotationStatus _ _ _))
    exact .of_same fun id _ _ _ => .of_tables rfl rfl rfl rfl

/-- **Step lemma.** -/
theorem quotationStep_frozen (db : QuotationDb) (a : QuotationAction) : TermsFrozen db (quotationStep db a) := by
  unfold quotationStep
  cases h : a.request db with
  | error e => exact .refl db
  | ok db' =>
    simp only [orKeep]
    cases a with
    | save env p =>
      simp only [QuotationAction.request, map_eq_ok] at h
      obtain ⟨⟨db₁, ids⟩, hsave, rfl⟩ := h
      exact saveQuotation_frozen hsave
    | create env quotationId p =>
      simp only [QuotationAction.request, map_eq_ok] at h
      obtain ⟨⟨db₁, id⟩, hcreate, rfl⟩ := h
      exact createRevision_frozen hcreate
    | send revisionId => exact issueRevision_frozen (by decide) h
    | submit revisionId => exact issueRevision_frozen (by decide) h
    | accept revisionId => exact acceptRevision_frozen h
    | reject revisionId => exact withdrawRevision_frozen (by decide) h
    | cancel revisionId => exact withdrawRevision_frozen (by decide) h
    | convert env revisionId idempotencyKey =>
      simp only [QuotationAction.request, map_eq_ok] at h
      obtain ⟨⟨db₁, id⟩, hconvert, rfl⟩ := h
      exact convertRevision_frozen hconvert

/-- **A revision that has left DRAFT is frozen** in every run, whatever drafts are open beside it. -/
theorem frozen_revisions (db : QuotationDb) (as : List QuotationAction) : TermsFrozen db (run quotationStep db as) :=
  run_relation TermsFrozen .refl TermsFrozen.trans quotationStep_frozen db as

end LcsSystem
