import LcsSystem.Quotations.FrozenRevisions
import LcsSystem.Quotations.Lifecycle

/-!
# Requests as operations of the lifecycle

What a request does to the numbers, statuses and conversions of the quotation tables is one operation of
`Lifecycle`, or nothing. The two writers of revisions take the next number from `MAX(revision_no)`, the
lifecycle from the header: they agree as long as the revisions are `Numbered`.
-/

namespace LcsSystem
open Relational Checks

def Quotation.head (q : Quotation) : QuotationHead := ⟨q.currentRevisionNo, q.status⟩

def QuotationRevision.head (r : QuotationRevision) : RevisionHead := ⟨r.quotationId, r.revisionNo, r.status⟩

/-- What the lifecycle sees of the tables. -/
def QuotationDb.lifecycle (db : QuotationDb) : Lifecycle where
  quotations := db.quotations.map Quotation.head
  revisions := db.revisions.map QuotationRevision.head
  conversions := db.conversions.map QuotationConversion.quotationRevisionId

section
variable {db : QuotationDb}

theorem lifecycle_get?_quotations (db : QuotationDb) (id : ℕ) :
    db.lifecycle.quotations.get? id = (db.quotations.get? id).map Quotation.head := Table.get?_map _ _ _

theorem lifecycle_get?_revisions (db : QuotationDb) (id : ℕ) :
    db.lifecycle.revisions.get? id = (db.revisions.get? id).map QuotationRevision.head := Table.get?_map _ _ _

theorem lifecycle_revisionsOf (db : QuotationDb) (quotationId : ℕ) :
    db.lifecycle.revisionsOf quotationId = (db.revisionsOf quotationId).map fun r => (r.1, r.2.head) :=
  Table.select_map _ _ _

theorem lifecycle_numbersOf (db : QuotationDb) (quotationId : ℕ) :
    db.lifecycle.numbersOf quotationId = (db.revisionsOf quotationId).map fun r => r.2.revisionNo := by
  rw [Lifecycle.numbersOf, lifecycle_revisionsOf, List.map_map]
  rfl

theorem lifecycle_competing (db : QuotationDb) (quotationId revisionId : ℕ) :
    (db.lifecycle.competing quotationId revisionId).map Prod.fst =
      (competingRevisions db quotationId revisionId).map Prod.fst := by
  rw [Lifecycle.competing, lifecycle_revisionsOf, competingRevisions, List.filter_map, List.map_map]
  rfl

/-! ## The latest revision -/

theorem latestRevision_max {quotationId : ℕ} {r : ℕ × QuotationRevision} (h : latestRevision db quotationId = some r) :
    ∀ s ∈ db.revisionsOf quotationId, s.2.revisionNo ≤ r.2.revisionNo := by
  have htotal : Std.Total revisionOrder := ⟨fun a b => Nat.le_total b.2.revisionNo a.2.revisionNo⟩
  have htrans : IsTrans _ revisionOrder := ⟨fun a b c hab hbc => Nat.le_trans hbc hab⟩
  have hsorted := List.pairwise_insertionSort revisionOrder (db.revisionsOf quotationId)
  intro s hs
  rw [← List.mem_insertionSort (r := revisionOrder)] at hs
  unfold latestRevision at h
  cases hrows : (db.revisionsOf quotationId).insertionSort revisionOrder with
  | nil =>
    rw [hrows] at hs
    cases hs
  | cons first rest =>
    rw [hrows, List.head?_cons, Option.some.injEq] at h
    subst h
    rw [hrows] at hs hsorted
    rcases List.mem_cons.1 hs with rfl | hs
    · exact le_rfl
    · exact (List.pairwise_cons.1 hsorted).1 s hs

theorem latestRevision_eq_none {quotationId : ℕ} : latestRevision db quotationId = none ↔
    db.revisionsOf quotationId = [] := by
  rw [latestRevision, List.head?_eq_none_iff]
  constructor
  · intro h
    have hperm := List.perm_insertionSort revisionOrder (db.revisionsOf quotationId)
    rw [h] at hperm
    exact List.nil_perm.1 hperm
  · intro h
    rw [h]
    rfl

/-- A stored quotation has a latest revision, which is the current one. -/
theorem exists_latestRevision (hdb : db.lifecycle.Numbered) {quotationId : ℕ} {q : Quotation}
    (hq : db.quotations.get? quotationId = some q) :
    ∃ r, latestRevision db quotationId = some r ∧ r.2.revisionNo = q.currentRevisionNo := by
  have hhead : db.lifecycle.quotations.get? quotationId = some q.head := by
    rw [lifecycle_get?_quotations, hq, Option.map_some]
  obtain ⟨r, hr, hno⟩ := hdb.exists_current hhead
  rw [lifecycle_revisionsOf] at hr
  obtain ⟨s, hs, rfl⟩ := List.mem_map.1 hr
  cases hlatest : latestRevision db quotationId with
  | none =>
    rw [latestRevision_eq_none.1 hlatest] at hs
    cases hs
  | some latest =>
    refine ⟨latest, rfl, le_antisymm ?_ ?_⟩
    · obtain ⟨hget, hparent⟩ := latestRevision_eq_some hlatest
      have hmem : (latest.1, latest.2.head) ∈ db.lifecycle.revisionsOf quotationId := by
        rw [Lifecycle.mem_revisionsOf, lifecycle_get?_revisions, hget]
        exact ⟨rfl, hparent⟩
      exact hdb.le_current hhead hmem
    · have hcurrent : s.2.revisionNo = q.currentRevisionNo := hno
      exact hcurrent ▸ latestRevision_max hlatest s hs

theorem foldl_max_range' (n : ℕ) : (List.range' 1 n).foldl max 0 = n := by
  induction n with
  | zero => rfl
  | succ n ih =>
    rw [List.range'_concat, List.foldl_append, ih]
    simp [Nat.add_comm]

theorem nextRevisionNo_eq (hdb : db.lifecycle.Numbered) {quotationId : ℕ} {q : Quotation}
    (hq : db.quotations.get? quotationId = some q) : nextRevisionNo db quotationId = q.currentRevisionNo + 1 := by
  have hnumbers := hdb.numbers quotationId q.head (by rw [lifecycle_get?_quotations, hq, Option.map_some])
  rw [lifecycle_numbersOf] at hnumbers
  rw [nextRevisionNo, hnumbers, foldl_max_range']
  rfl

end

/-! ## The parts of a save -/

section
variable {db db' : QuotationDb} {revisionId : ℕ} {p : QuotationPayload}

theorem saveContainers_spec (h : saveContainers db revisionId p = .ok db') :
    ∃ types containers, db' = { db with containerTypes := types, containers := containers } := by
  unfold saveContainers at h
  split at h
  · rw [bind_eq_ok] at h
    obtain ⟨rows, -, hrows⟩ := h
    obtain ⟨types, containers, rfl⟩ := foldlM_relation
      (fun a b : QuotationDb => ∃ types containers, b = { a with containerTypes := types, containers := containers })
      (fun a => ⟨a.containerTypes, a.containers, rfl⟩) (by
        rintro a b c ⟨_, _, rfl⟩ ⟨types, containers, rfl⟩
        exact ⟨types, containers, rfl⟩) (by
        intro a c b hinsert
        simp only [insertContainer, bind_eq_ok, pure_eq_ok] at hinsert
        obtain ⟨⟨types, typeId⟩, -, quantity, -, weight, -, rfl⟩ := hinsert
        exact ⟨_, _, rfl⟩) hrows
    exact ⟨types, containers, rfl⟩
  · cases h
    exact ⟨db.containerTypes, db.containers, rfl⟩

theorem savePlaces_spec (h : savePlaces db revisionId p = .ok db') : ∃ places, db' = { db with places := places } := by
  unfold savePlaces at h
  split at h
  · simp only [bind_eq_ok, pure_eq_ok] at h
    obtain ⟨places, -, rfl⟩ := h
    exact ⟨places, rfl⟩
  · cases h
    exact ⟨db.places, rfl⟩

theorem savePricingLines_spec (h : savePricingLines db revisionId p = .ok db') :
    db' = db ∨ ∃ lines amounts, db' = { db with
      lines := lines
      revisions := db.revisions.modify revisionId fun r => { r with amounts := amounts } } := by
  unfold savePricingLines at h
  split at h
  · cases h
    exact .inl rfl
  · simp only [bind_eq_ok, pure_eq_ok] at h
    obtain ⟨payloads, -, priced, -, rows, -, amounts, -, rfl⟩ := h
    exact .inr ⟨_, amounts, rfl⟩

/-- Columns of a revision that the lifecycle does not see. -/
theorem lifecycle_modify_revision (db : QuotationDb) (lines : Table QuotationRevisionLine) (id : ℕ)
    {f : QuotationRevision → QuotationRevision} (h : ∀ r, (f r).head = r.head) :
    ({ db with lines := lines, revisions := db.revisions.modify id f } : QuotationDb).lifecycle = db.lifecycle := by
  simp only [QuotationDb.lifecycle, Table.map_modify_of_same h]

theorem saveRevisionHeader_lifecycle (h : saveRevisionHeader db revisionId p = .ok db') :
    db'.lifecycle = db.lifecycle := by
  simp only [saveRevisionHeader, bind_eq_ok, pure_eq_ok] at h
  obtain ⟨_, -, rfl⟩ := h
  exact lifecycle_modify_revision db db.lines revisionId fun _ => rfl

theorem saveRevisionChildren_lifecycle (h : saveRevisionChildren db revisionId p = .ok db') :
    db'.lifecycle = db.lifecycle := by
  simp only [saveRevisionChildren, bind_eq_ok] at h
  obtain ⟨db₁, hcontainers, db₂, hplaces, hlines⟩ := h
  obtain ⟨types, containers, rfl⟩ := saveContainers_spec hcontainers
  obtain ⟨places, rfl⟩ := savePlaces_spec hplaces
  rcases savePricingLines_spec hlines with rfl | ⟨lines, amounts, rfl⟩
  · rfl
  · exact lifecycle_modify_revision _ lines revisionId fun _ => rfl

theorem modifyQuotation_lifecycle (db : QuotationDb) (id : ℕ) {f : Quotation → Quotation} {g : QuotationHead → QuotationHead}
    (h : ∀ q, (f q).head = g q.head) :
    (modifyQuotation db id f).lifecycle = { db.lifecycle with quotations := db.lifecycle.quotations.modify id g } := by
  simp only [QuotationDb.lifecycle, modifyQuotation, Table.map_modify h]

theorem map_head_modify (quotations : Table Quotation) (id : ℕ) (q : Quotation) :
    (quotations.modify id fun _ => q).map Quotation.head =
      (quotations.map Quotation.head).modify id fun _ => q.head := by
  refine Table.map_modify ?_ quotations id
  exact fun _ => rfl

/-- Columns of a quotation that the lifecycle does not see. -/
theorem modifyQuotation_lifecycle_of_same (db : QuotationDb) (id : ℕ) {f : Quotation → Quotation}
    (h : ∀ q, (f q).head = q.head) : (modifyQuotation db id f).lifecycle = db.lifecycle := by
  simp only [QuotationDb.lifecycle, modifyQuotation, Table.map_modify_of_same h]

/-- The one update of a quotation whose new head is known. -/
theorem map_head_modify_of {quotations : Table Quotation} {id : ℕ} {q : Quotation} {f : Quotation → Quotation}
    (hq : quotations.get? id = some q) :
    (quotations.modify id f).map Quotation.head = (quotations.map Quotation.head).modify id fun _ => (f q).head := by
  rw [Table.modify_congr hq (g := fun _ => f q) rfl, map_head_modify]

/-- A copy is the next draft. -/
theorem cloneRevision_lifecycle (hdb : db.lifecycle.Numbered) {quotationId : ℕ} {q : Quotation}
    (hq : db.quotations.get? quotationId = some q) (source : ℕ × QuotationRevision) (userId : Option ℕ)
    (f : Quotation → Quotation) {status : String} (hf : (f q).head = ⟨nextRevisionNo db quotationId, status⟩) :
    (modifyQuotation (cloneRevision db quotationId source userId).1 quotationId f).lifecycle =
      db.lifecycle.reopen quotationId q.head status := by
  have hquotations : (modifyQuotation (cloneRevision db quotationId source userId).1 quotationId f).lifecycle.quotations =
      (db.lifecycle.reopen quotationId q.head status).quotations := by
    refine (map_head_modify_of hq).trans ?_
    rw [hf, nextRevisionNo_eq hdb hq]
    rfl
  have hrevisions : (modifyQuotation (cloneRevision db quotationId source userId).1 quotationId f).lifecycle.revisions =
      (db.lifecycle.reopen quotationId q.head status).revisions := by
    refine (Table.map_insert QuotationRevision.head db.revisions _).trans ?_
    simp only [QuotationRevision.head, nextRevisionNo_eq hdb hq]
    rfl
  simp only [QuotationDb.lifecycle, Lifecycle.reopen, Lifecycle.mk.injEq] at hquotations hrevisions ⊢
  exact ⟨hquotations, hrevisions, rfl⟩

theorem insertRevision_lifecycle (db : QuotationDb) (r : QuotationRevision) :
    ({ db with revisions := db.revisions.insert r } : QuotationDb).lifecycle =
      { db.lifecycle with revisions := db.lifecycle.revisions.insert r.head } := by
  simp only [QuotationDb.lifecycle, Table.map_insert]

end

/-! ## Requests -/

/-- The status that the header shows after a save. -/
def savedStatus (db : QuotationDb) (p : QuotationPayload) : String :=
  match storedQuotation db p with
  | none => normalizeStatus p.status.text.get? "DRAFT"
  | some (id, q) =>
    if p.status.sent = true ∨ (latestRevision db id).any (fun r => r.2.status == .draft) = true then
      normalizeStatus p.status.text.get? q.status
    else "DRAFT"

section
variable {env : Env} {db db' : QuotationDb} {p : QuotationPayload} {quotationId revisionId : ℕ}

theorem storedQuotation_eq_some {q : Quotation} (h : storedQuotation db p = some (quotationId, q)) :
    db.quotations.get? quotationId = some q := (Table.bind_get?_eq_some.1 h).2

/-- The header of a save. -/
theorem quotationOf_lifecycle {headed : QuotationDb} (h : quotationOf env db p = .ok (headed, quotationId)) :
    headed.revisions = db.revisions ∧
      ((∃ q q', storedQuotation db p = some (quotationId, q) ∧ headed.quotations.get? quotationId = some q' ∧
          q'.head = ⟨q.currentRevisionNo, normalizeStatus p.status.text.get? q.status⟩ ∧
          headed.lifecycle = db.lifecycle.relabel quotationId (normalizeStatus p.status.text.get? q.status)) ∨
        storedQuotation db p = none ∧ quotationId = db.quotations.nextId ∧
          headed.lifecycle = { db.lifecycle with
            quotations := db.lifecycle.quotations.insert ⟨1, normalizeStatus p.status.text.get? "DRAFT"⟩ }) := by
  obtain ⟨parties, directions, sequences, quotations, rfl, hquotations⟩ := quotationOf_spec h
  refine ⟨rfl, hquotations.imp ?_ ?_⟩
  · rintro ⟨q, partyId, directionId, hstored, rfl⟩
    have hq := storedQuotation_eq_some hstored
    have hhead : db.lifecycle.quotations.get? quotationId = some q.head := by
      rw [lifecycle_get?_quotations, hq, Option.map_some]
    refine ⟨q, _, hstored, by rw [Table.get?_modify_self, hq, Option.map_some], rfl, ?_⟩
    simp only [QuotationDb.lifecycle, Lifecycle.relabel, map_head_modify]
    congr 1
    exact Table.modify_congr hhead rfl
  · rintro ⟨hnew, rfl, q, hno, hstatus, rfl⟩
    refine ⟨hnew, rfl, ?_⟩
    simp only [QuotationDb.lifecycle, Table.map_insert, Quotation.head, hno, hstatus]

theorem latestRevision_congr {db₁ : QuotationDb} (h : db₁.revisions = db.revisions) (quotationId : ℕ) :
    latestRevision db₁ quotationId = latestRevision db quotationId := by
  rw [latestRevision, latestRevision, QuotationDb.revisionsOf, QuotationDb.revisionsOf, h]

/-- A save registers a quotation, or it relabels or reopens a stored one. -/
theorem saveQuotation_lifecycle (hdb : db.lifecycle.Numbered)
    (h : saveQuotation env db p = .ok (db', quotationId, revisionId)) :
    (storedQuotation db p = none ∧ quotationId = db.quotations.nextId ∧ revisionId = db.revisions.nextId ∧
        db'.lifecycle = db.lifecycle.register (savedStatus db p)) ∨
      ∃ q latest, storedQuotation db p = some (quotationId, q) ∧ latestRevision db quotationId = some latest ∧
        (latest.2.status = .draft ∧ revisionId = latest.1 ∧
            db'.lifecycle = db.lifecycle.relabel quotationId (savedStatus db p) ∨
          latest.2.status ≠ .draft ∧ revisionId = db.revisions.nextId ∧
            db'.lifecycle = db.lifecycle.reopen quotationId q.head (savedStatus db p)) := by
  obtain ⟨headed, opened, dated, saved, hheaded, hopened, hdated, hsaved, rfl⟩ := saveQuotation_steps h
  have hsame : (modifyQuotation saved quotationId fun q => { q with data := q.data.merge p }).lifecycle =
      opened.lifecycle := by
    refine (modifyQuotation_lifecycle_of_same saved quotationId ?_).trans ?_
    · exact fun _ => rfl
    · rw [saveRevisionChildren_lifecycle hsaved, saveRevisionHeader_lifecycle hdated]
  rw [hsame]
  obtain ⟨hrevisions, hquotation⟩ := quotationOf_lifecycle hheaded
  have hlatest_eq := latestRevision_congr hrevisions quotationId
  unfold editableRevision at hopened
  rcases hquotation with ⟨q, q', hstored, hq', hhead, hlifecycle⟩ | ⟨hnew, hid, hlifecycle⟩
  · obtain ⟨latest, hlatest, -⟩ := exists_latestRevision hdb (storedQuotation_eq_some hstored)
    refine .inr ⟨q, latest, hstored, hlatest, ?_⟩
    simp only [hlatest_eq, hlatest] at hopened
    by_cases hdraft : latest.2.status = .draft
    · simp only [RevisionStatus.isImmutable_eq_false.2 hdraft, Bool.false_eq_true, if_false, Prod.mk.injEq] at hopened
      obtain ⟨rfl, rfl⟩ := hopened
      have hstatus : savedStatus db p = normalizeStatus p.status.text.get? q.status := by
        simp [savedStatus, hstored, hlatest, hdraft]
      exact .inl ⟨hdraft, rfl, by rw [hstatus, hlifecycle]⟩
    · have himmutable : latest.2.status.isImmutable = true := by
        by_contra hmutable
        exact hdraft (RevisionStatus.isImmutable_eq_false.1 (Bool.eq_false_of_not_eq_true hmutable))
      simp only [himmutable, if_true, Prod.mk.injEq] at hopened
      obtain ⟨rfl, rfl⟩ := hopened
      have hstatus : savedStatus db p =
          if p.status.sent then normalizeStatus p.status.text.get? q.status else "DRAFT" := by
        simp [savedStatus, hstored, hlatest, hdraft]
      have hnumbered : headed.lifecycle.Numbered := hlifecycle ▸ hdb.relabel quotationId _
      refine .inr ⟨hdraft, by rw [← hrevisions]; rfl, ?_⟩
      rw [cloneRevision_lifecycle hnumbered hq' latest env.userId _ rfl, hlifecycle, hhead, hstatus]
      have hshown : q'.status = normalizeStatus p.status.text.get? q.status := congrArg QuotationHead.status hhead
      simp only [Lifecycle.reopen, Lifecycle.relabel, Table.modify_modify, hshown]
      rfl
  · refine .inl ⟨hnew, hid, ?_⟩
    have hnone : latestRevision db quotationId = none := by
      rw [latestRevision_eq_none]
      have hrows := hdb.revisionsOf_nextId
      rw [lifecycle_revisionsOf] at hrows
      rw [hid]
      exact List.map_eq_nil_iff.1 hrows
    simp only [hlatest_eq, hnone, Prod.mk.injEq] at hopened
    obtain ⟨rfl, rfl⟩ := hopened
    have hstatus : savedStatus db p = normalizeStatus p.status.text.get? "DRAFT" := by
      simp [savedStatus, hnew]
    refine ⟨by rw [hrevisions], ?_⟩
    rw [insertRevision_lifecycle, hlifecycle, hstatus, hid]
    rfl

/-- A new revision reopens its quotation. -/
theorem createRevision_lifecycle (hdb : db.lifecycle.Numbered)
    (h : createRevision env db quotationId p = .ok (db', revisionId)) :
    ∃ q latest, db.quotations.get? quotationId = some q ∧ latestRevision db quotationId = some latest ∧
      db'.lifecycle = db.lifecycle.reopen quotationId q.head (if latest.2.status = .draft then q.status else "DRAFT") := by
  simp only [createRevision, bind_eq_ok, require_eq_ok] at h
  obtain ⟨_, -, q, hq, h⟩ := h
  obtain ⟨latest, hlatest, -⟩ := exists_latestRevision hdb hq
  simp only [hlatest, pure_eq_ok, Prod.mk.injEq] at h
  obtain ⟨rfl, -⟩ := h
  exact ⟨q, latest, hq, hlatest, cloneRevision_lifecycle hdb hq latest env.userId _ rfl⟩

end

/-! ## Statuses -/

section
variable {db db' : QuotationDb} {revisionId : ℕ}

theorem revisionWithQuotation_eq_ok {q : Quotation} {r : QuotationRevision} :
    revisionWithQuotation db revisionId = .ok (q, r) ↔
      db.revisions.get? revisionId = some r ∧ db.quotations.get? r.quotationId = some q := by
  simp only [revisionWithQuotation, bind_eq_ok, require_eq_ok, pure_eq_ok, Prod.mk.injEq]
  constructor
  · rintro ⟨_, hr, _, hq, rfl, rfl⟩
    exact ⟨hr, hq⟩
  · rintro ⟨hr, hq⟩
    exact ⟨r, hr, q, hq, rfl, rfl⟩

theorem setRevisionStatus_lifecycle (db : QuotationDb) (revisionId : ℕ) (status : RevisionStatus) :
    (setRevisionStatus db revisionId status).lifecycle = db.lifecycle.setStatus revisionId status := by
  simp only [QuotationDb.lifecycle, Lifecycle.setStatus, setRevisionStatus, Lifecycle.mk.injEq, true_and, and_true]
  refine Table.map_modify ?_ db.revisions revisionId
  exact fun _ => rfl

theorem setQuotationStatus_lifecycle (db : QuotationDb) (quotationId : ℕ) (status : RevisionStatus) :
    (setQuotationStatus db quotationId status).lifecycle = db.lifecycle.relabel quotationId status.code := by
  simp only [QuotationDb.lifecycle, Lifecycle.relabel, setQuotationStatus, modifyQuotation, Lifecycle.mk.injEq, and_true]
  refine Table.map_modify ?_ db.quotations quotationId
  exact fun _ => rfl

/-- A draft is sent or submitted. -/
theorem issueRevision_lifecycle {verb : String} {status : RevisionStatus} {done : List RevisionStatus}
    (h : issueRevision verb status done db revisionId = .ok db') :
    db' = db ∨ ∃ r, db.revisions.get? revisionId = some r ∧ r.status = .draft ∧
      db'.lifecycle = (db.lifecycle.setStatus revisionId status).relabel r.quotationId status.code := by
  simp only [issueRevision, bind_eq_ok] at h
  obtain ⟨⟨q, r⟩, hread, h⟩ := h
  split at h
  · cases h
    exact .inl rfl
  · simp only [bind_eq_ok, check_eq_ok, pure_eq_ok] at h
    obtain ⟨_, hdraft, rfl⟩ := h
    refine .inr ⟨r, (revisionWithQuotation_eq_ok.1 hread).1, hdraft, ?_⟩
    rw [setQuotationStatus_lifecycle, setRevisionStatus_lifecycle]

theorem foldl_supersede_lifecycle (db : QuotationDb) (others : List (ℕ × QuotationRevision)) :
    (others.foldl (fun db other => setRevisionStatus db other.1 .superseded) db).lifecycle =
      db.lifecycle.supersede (others.map Prod.fst) := by
  induction others generalizing db with
  | nil => rfl
  | cons other others ih =>
    rw [List.foldl_cons, ih, setRevisionStatus_lifecycle]
    rfl

/-- A sent revision is accepted; the acceptance of an accepted one is repeated. -/
theorem acceptRevision_lifecycle (h : acceptRevision db revisionId = .ok db') :
    (∃ r, db.revisions.get? revisionId = some r ∧ r.status = .accepted ∧ db' = db) ∨
      ∃ r, db.revisions.get? revisionId = some r ∧ r.status = .sent ∧
        db'.lifecycle = db.lifecycle.accept r.quotationId revisionId := by
  simp only [acceptRevision, bind_eq_ok] at h
  obtain ⟨⟨q, r⟩, hread, h⟩ := h
  have hr := (revisionWithQuotation_eq_ok.1 hread).1
  split at h
  · next haccepted =>
    cases h
    exact .inl ⟨r, hr, haccepted, rfl⟩
  · simp only [bind_eq_ok, check_eq_ok, pure_eq_ok] at h
    obtain ⟨_, hsent, rfl⟩ := h
    refine .inr ⟨r, hr, hsent, ?_⟩
    rw [foldl_supersede_lifecycle, setQuotationStatus_lifecycle, setRevisionStatus_lifecycle, Lifecycle.accept,
      lifecycle_competing]

/-- A rejection or a cancellation reaches the header where nothing else can be accepted any more. -/
def Mirrored (db : QuotationDb) (revisionId : ℕ) (q : Quotation) (r : QuotationRevision) : Prop :=
  q.currentRevisionNo = r.revisionNo ∧
    ∀ other ∈ db.revisionsOf r.quotationId, other.1 ≠ revisionId → other.2.status.isLive = false

theorem withdrawRevision_lifecycle {verb : String} {status : RevisionStatus}
    (h : withdrawRevision verb status db revisionId = .ok db') :
    db' = db ∨ ∃ q r, db.revisions.get? revisionId = some r ∧ db.quotations.get? r.quotationId = some q ∧
      r.status ∈ [.draft, .sent, .submitted] ∧
        (Mirrored db revisionId q r ∧
            db'.lifecycle = (db.lifecycle.setStatus revisionId status).relabel r.quotationId status.code ∨
          ¬Mirrored db revisionId q r ∧ db'.lifecycle = db.lifecycle.setStatus revisionId status) := by
  simp only [withdrawRevision, bind_eq_ok] at h
  obtain ⟨⟨q, r⟩, hread, h⟩ := h
  obtain ⟨hr, hq⟩ := revisionWithQuotation_eq_ok.1 hread
  split at h
  · cases h
    exact .inl rfl
  · simp only [bind_eq_ok, check_eq_ok] at h
    obtain ⟨_, hopen, h⟩ := h
    refine .inr ⟨q, r, hr, hq, hopen, ?_⟩
    split at h
    · next hmirrored =>
      cases h
      exact .inl ⟨hmirrored, by rw [setQuotationStatus_lifecycle, setRevisionStatus_lifecycle]⟩
    · next hmirrored =>
      cases h
      exact .inr ⟨hmirrored, setRevisionStatus_lifecycle db revisionId status⟩

/-- A conversion is recorded, or repeated. -/
theorem convertRevision_lifecycle {env : Env} {orderId : ℕ} {idempotencyKey : Option String}
    (h : convertRevision env db revisionId idempotencyKey = .ok (db', orderId)) :
    db' = db ∨ ∃ r, db.revisions.get? revisionId = some r ∧ r.status ∈ [.submitted, .sent, .accepted] ∧
      db'.lifecycle = db.lifecycle.convert r.quotationId revisionId := by
  unfold convertRevision at h
  split at h
  · simp only [bind_eq_ok, pure_eq_ok, Prod.mk.injEq] at h
    obtain ⟨_, -, rfl, -⟩ := h
    exact .inl rfl
  · simp only [convertNew, createServiceOrderFromQuotation, bind_eq_ok, check_eq_ok, pure_eq_ok, Prod.mk.injEq] at h
    obtain ⟨⟨q, r⟩, hread, _, -, _, hopen, ⟨ordered, order⟩, ⟨_, -, rfl, rfl⟩, _, -, rfl, -⟩ := h
    refine .inr ⟨r, (revisionWithQuotation_eq_ok.1 hread).1, hopen, ?_⟩
    rw [setQuotationStatus_lifecycle, setRevisionStatus_lifecycle, Lifecycle.convert]
    simp only [QuotationDb.lifecycle, Table.map_insert]

theorem removeQuotation_lifecycle (db : QuotationDb) (quotationId : ℕ) (conversions : Table QuotationConversion) :
    (removeQuotation { db with conversions := conversions } quotationId).lifecycle =
      db.lifecycle.remove quotationId (conversions.map QuotationConversion.quotationRevisionId) := by
  simp only [QuotationDb.lifecycle, Lifecycle.remove, removeQuotation, Lifecycle.mk.injEq, and_true]
  constructor
  · refine Table.map_erase ?_ db.quotations
    exact fun _ _ => rfl
  · refine Table.map_erase ?_ db.revisions
    exact fun _ _ => rfl

theorem deleteQuotation_lifecycle {quotationId : ℕ} (h : deleteQuotation db quotationId = .ok db') :
    db' = db ∨ ∃ conversions, db'.lifecycle = db.lifecycle.remove quotationId conversions := by
  unfold deleteQuotation at h
  split at h
  · cases h
    exact .inl rfl
  · simp only [bind_eq_ok, pure_eq_ok] at h
    obtain ⟨_, -, _, -, _, -, rfl⟩ := h
    exact .inr ⟨_, removeQuotation_lifecycle db quotationId _⟩

end
end LcsSystem
