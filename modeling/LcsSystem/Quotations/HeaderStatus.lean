import LcsSystem.Quotations.RevisionNumbers
import LcsSystem.Quotations.ShownStatus

/-!
# The header and its revisions

Seven requests write the status of a quotation. Two of them let it lie: a save takes the status that the body
names, and a rejection or a cancellation reaches the header only from the current revision, so the last open
revision can be withdrawn behind it. `KeepsTruth` is the condition under which neither happens;
`header_truthful` is the result over runs.
-/

namespace LcsSystem
open Relational Checks Transition

/-! ## The condition -/

/-- The status that a body names for a quotation; a blank one is the stored one. -/
def namedStatus (db : QuotationDb) (p : QuotationPayload) : String :=
  normalizeStatus p.status.text.get? (match storedQuotation db p with
    | some r => r.2.status
    | none => "DRAFT")

/-- A body with a status names neither REJECTED nor CANCELLED, and CONVERTED for a converted quotation only. -/
def NamesOpenStatus (db : QuotationDb) (p : QuotationPayload) : Prop :=
  p.status.sent = true → ¬Lifecycle.Closed (namedStatus db p) ∧
    (namedStatus db p = RevisionStatus.converted.code →
      ∃ r ∈ storedQuotation db p, (conversionForQuotation db r.1).isSome = true)

/-- An open revision to withdraw is the current one, or another revision of its quotation is not withdrawn. -/
def WithdrawsVisibly (db : QuotationDb) (revisionId : ℕ) : Prop :=
  ∀ r ∈ db.revisions.get? revisionId, r.status ∈ [.draft, .sent, .submitted] →
    ∀ q ∈ db.quotations.get? r.quotationId, q.currentRevisionNo = r.revisionNo ∨
      ∃ other ∈ db.revisionsOf r.quotationId, other.1 ≠ revisionId ∧ other.2.status ∉ [.rejected, .cancelled]

def KeepsTruth (db : QuotationDb) : QuotationAction → Prop
  | .save _ p => NamesOpenStatus db p
  | .reject revisionId | .cancel revisionId => WithdrawsVisibly db revisionId
  | _ => True

instance (db : QuotationDb) : ∀ a, Decidable (KeepsTruth db a)
  | .save _ p => inferInstanceAs (Decidable (p.status.sent = true → _ ∧ (_ → ∃ r ∈ storedQuotation db p, _)))
  | .reject revisionId | .cancel revisionId =>
    inferInstanceAs (Decidable (∀ r ∈ db.revisions.get? revisionId, _ → ∀ q ∈ db.quotations.get? r.quotationId, _))
  | .create .. | .send _ | .submit _ | .accept _ | .convert .. => .isTrue trivial

/-! ## Steps -/

section
variable {db db' : QuotationDb}

theorem converted_iff {quotationId : ℕ} :
    db.lifecycle.Converted quotationId ↔ (conversionForQuotation db quotationId).isSome = true := by
  simp only [Lifecycle.Converted, conversionForQuotation, List.find?_isSome, Option.any_eq_true, beq_iff_eq]
  constructor
  · rintro ⟨_, hc, r, hr, hparent⟩
    rw [QuotationDb.lifecycle, Table.values_map, List.mem_map] at hc
    obtain ⟨c, hc, rfl⟩ := hc
    rw [lifecycle_get?_revisions, Option.map_eq_some_iff] at hr
    obtain ⟨r, hr, rfl⟩ := hr
    exact ⟨c, hc, r, hr, hparent⟩
  · rintro ⟨c, hc, r, hr, hparent⟩
    refine ⟨c.quotationRevisionId, ?_, r.head, ?_, hparent⟩
    · rw [QuotationDb.lifecycle, Table.values_map]
      exact List.mem_map_of_mem hc
    · rw [lifecycle_get?_revisions, hr, Option.map_some]

theorem Field.text_get?_of_not_sent {f : Field String} (h : f.sent = false) : f.text.get? = none := by
  cases f <;> first | rfl | cases h

theorem latestRevision_head {quotationId : ℕ} {latest : ℕ × QuotationRevision}
    (h : latestRevision db quotationId = some latest) :
    db.lifecycle.revisions.get? latest.1 = some latest.2.head ∧ latest.2.quotationId = quotationId := by
  obtain ⟨hget, hparent⟩ := latestRevision_eq_some h
  exact ⟨by rw [lifecycle_get?_revisions, hget, Option.map_some], hparent⟩

theorem not_closed_draft : ¬Lifecycle.Closed "DRAFT" ∧ "DRAFT" ≠ RevisionStatus.converted.code := by decide

theorem save_truthful (hnumbered : db.lifecycle.Numbered) (h : db.lifecycle.Truthful) {env : Env}
    {p : QuotationPayload} {quotationId revisionId : ℕ} (hnames : NamesOpenStatus db p)
    (hsave : saveQuotation env db p = .ok (db', quotationId, revisionId)) : db'.lifecycle.Truthful := by
  rcases saveQuotation_lifecycle hnumbered hsave with
    ⟨hnew, -, -, heq⟩ | ⟨q, latest, hstored, hlatest, hwritten⟩
  · have hopen : savedStatus db p ≠ RevisionStatus.converted.code ∧ ¬Lifecycle.Closed (savedStatus db p) := by
      by_cases hsent : p.status.sent = true
      · have hnamed : savedStatus db p = namedStatus db p := by simp [savedStatus, namedStatus, hnew]
        rw [hnamed]
        obtain ⟨hclosed, hconverted⟩ := hnames hsent
        refine ⟨fun hcode => ?_, hclosed⟩
        obtain ⟨r, hr, -⟩ := hconverted hcode
        rw [hnew] at hr
        cases hr
      · have hstatus : savedStatus db p = "DRAFT" := by
          simp [savedStatus, hnew, Field.text_get?_of_not_sent (Bool.eq_false_of_not_eq_true hsent), normalizeStatus]
        rw [hstatus]
        exact not_closed_draft.symm
    rw [heq]
    exact h.register hopen.1 hopen.2
  · have hq := storedQuotation_eq_some hstored
    have hhead : db.lifecycle.quotations.get? quotationId = some q.head := by
      rw [lifecycle_get?_quotations, hq, Option.map_some]
    obtain ⟨hget, hparent⟩ := latestRevision_head hlatest
    -- a status that is sent is an open one, and without one the header keeps its own beside a draft
    have hopen : (savedStatus db p = RevisionStatus.converted.code → db.lifecycle.Converted quotationId) ∧
        ¬Lifecycle.Closed (savedStatus db p) := by
      by_cases hsent : p.status.sent = true
      · have hnamed : savedStatus db p = namedStatus db p := by simp [savedStatus, namedStatus, hstored, hsent]
        rw [hnamed]
        obtain ⟨hclosed, hconverted⟩ := hnames hsent
        refine ⟨fun hcode => ?_, hclosed⟩
        obtain ⟨r, hr, hsome⟩ := hconverted hcode
        rw [hstored, Option.mem_some_iff] at hr
        subst hr
        exact converted_iff.2 hsome
      · have hnone := Field.text_get?_of_not_sent (Bool.eq_false_of_not_eq_true hsent)
        by_cases hdraft : latest.2.status = .draft
        · have hstatus : savedStatus db p = q.status := by
            simp [savedStatus, hstored, hlatest, hdraft, hnone, normalizeStatus]
          rw [hstatus]
          refine ⟨(h quotationId q.head hhead).converted, ?_⟩
          refine Lifecycle.not_closed_of_live h hget (hparent ▸ hhead) ?_
          rw [QuotationRevision.head, hdraft]
          rfl
        · have hstatus : savedStatus db p = "DRAFT" := by
            simp [savedStatus, hstored, hlatest, hdraft, hsent]
          rw [hstatus]
          exact ⟨fun hcode => absurd hcode not_closed_draft.2, not_closed_draft.1⟩
    rcases hwritten with ⟨hdraft, -, heq⟩ | ⟨-, -, heq⟩
    · rw [heq]
      exact h.relabel hget hparent hdraft hopen.1 hopen.2
    · rw [heq]
      exact h.reopen hopen.1 hopen.2

theorem create_truthful (hnumbered : db.lifecycle.Numbered) (h : db.lifecycle.Truthful) {env : Env}
    {p : QuotationPayload} {quotationId revisionId : ℕ}
    (hcreate : createRevision env db quotationId p = .ok (db', revisionId)) : db'.lifecycle.Truthful := by
  obtain ⟨q, latest, hq, hlatest, heq⟩ := createRevision_lifecycle hnumbered hcreate
  have hhead : db.lifecycle.quotations.get? quotationId = some q.head := by
    rw [lifecycle_get?_quotations, hq, Option.map_some]
  obtain ⟨hget, hparent⟩ := latestRevision_head hlatest
  rw [heq]
  by_cases hdraft : latest.2.status = .draft
  · rw [if_pos hdraft]
    refine h.reopen (h quotationId q.head hhead).converted (Lifecycle.not_closed_of_live h hget (hparent ▸ hhead) ?_)
    rw [QuotationRevision.head, hdraft]
    rfl
  · rw [if_neg hdraft]
    exact h.reopen (fun hcode => absurd hcode not_closed_draft.2) not_closed_draft.1

theorem withdraw_truthful (h : db.lifecycle.Truthful) {verb : String} {status : RevisionStatus}
    {revisionId : ℕ} (hstatus : status ∈ [.rejected, .cancelled]) (hvisible : WithdrawsVisibly db revisionId)
    (hwithdraw : withdrawRevision verb status db revisionId = .ok db') : db'.lifecycle.Truthful := by
  rcases withdrawRevision_lifecycle hwithdraw with rfl | ⟨q, r, hr, hq, hopen, hwritten⟩
  · exact h
  have hhead : db.lifecycle.revisions.get? revisionId = some r.head := by
    rw [lifecycle_get?_revisions, hr, Option.map_some]
  rcases hwritten with ⟨hmirrored, heq⟩ | ⟨hmirrored, heq⟩
  · rw [heq]
    refine h.mirror hhead hstatus fun id s hs hparent hne => ?_
    rw [lifecycle_get?_revisions, Option.map_eq_some_iff] at hs
    obtain ⟨s, hs, rfl⟩ := hs
    exact hmirrored.2 (id, s) (Table.mem_select.2 ⟨hs, beq_iff_eq.2 hparent⟩) hne
  · have hlive : r.head.status.isLive = true := by
      rw [QuotationRevision.head, RevisionStatus.isLive]
      simp only [List.mem_cons, List.not_mem_nil, or_false] at hopen
      rcases hopen with hs | hs | hs <;> simp [hs]
    -- what is not mirrored is withdrawn beside a revision that is not
    have hother : ∃ other ∈ db.revisionsOf r.quotationId, other.1 ≠ revisionId ∧
        other.2.status ∉ [.rejected, .cancelled] := by
      rcases hvisible r hr hopen q hq with hcurrent | hother
      · simp only [Mirrored, hcurrent, true_and, not_forall] at hmirrored
        obtain ⟨other, hmem, hne, hsome⟩ := hmirrored
        refine ⟨other, hmem, hne, fun hwithdrawn => hsome ?_⟩
        rcases List.mem_pair.1 hwithdrawn with hs | hs <;> rw [hs] <;> rfl
      · exact hother
    obtain ⟨other, hmem, hne, hstands⟩ := hother
    obtain ⟨hget, hparent⟩ := Table.mem_select.1 hmem
    have hget' : db.lifecycle.revisions.get? other.1 = some other.2.head := by
      rw [lifecycle_get?_revisions, hget, Option.map_some]
    rw [heq]
    exact h.withdraw hhead hlive hget' (beq_iff_eq.1 hparent) hne hstands

theorem issue_truthful (h : db.lifecycle.Truthful) {verb : String} {status : RevisionStatus} {done : List RevisionStatus}
    {revisionId : ℕ} (hstatus : status ∉ [.converted, .rejected, .cancelled])
    (hissue : issueRevision verb status done db revisionId = .ok db') : db'.lifecycle.Truthful := by
  rcases issueRevision_lifecycle hissue with rfl | ⟨r, hr, -, heq⟩
  · exact h
  · have hhead : db.lifecycle.revisions.get? revisionId = some r.head := by
      rw [lifecycle_get?_revisions, hr, Option.map_some]
    rw [heq]
    exact h.issue hhead hstatus

/-- **Step lemma.** -/
theorem step_truthful (db : QuotationDb) (a : QuotationAction) (h : RevisionsNumbered db ∧ db.lifecycle.Truthful)
    (hkeeps : KeepsTruth db a) : RevisionsNumbered (quotationStep db a) ∧ (quotationStep db a).lifecycle.Truthful := by
  refine ⟨h.1.step (.request a), ?_⟩
  have hnumbered := (revisionsNumbered_iff.1 h.1).1
  unfold quotationStep
  cases hrequest : a.request db with
  | error e => exact h.2
  | ok db' =>
    simp only [orKeep]
    cases a with
    | save env p =>
      simp only [QuotationAction.request, map_eq_ok] at hrequest
      obtain ⟨⟨db₁, quotationId, revisionId⟩, hsave, rfl⟩ := hrequest
      exact save_truthful hnumbered h.2 hkeeps hsave
    | create env quotationId p =>
      simp only [QuotationAction.request, map_eq_ok] at hrequest
      obtain ⟨⟨db₁, revisionId⟩, hcreate, rfl⟩ := hrequest
      exact create_truthful hnumbered h.2 hcreate
    | send revisionId => exact issue_truthful h.2 (by decide) hrequest
    | submit revisionId => exact issue_truthful h.2 (by decide) hrequest
    | accept revisionId =>
      rcases acceptRevision_lifecycle hrequest with ⟨-, -, -, rfl⟩ | ⟨r, hr, -, heq⟩
      · exact h.2
      · rw [heq]
        exact h.2.accept (r := r.head) (by rw [lifecycle_get?_revisions, hr, Option.map_some])
    | reject revisionId => exact withdraw_truthful h.2 (by decide) hkeeps hrequest
    | cancel revisionId => exact withdraw_truthful h.2 (by decide) hkeeps hrequest
    | convert env revisionId idempotencyKey =>
      simp only [QuotationAction.request, map_eq_ok] at hrequest
      obtain ⟨⟨db₁, orderId⟩, hconvert, rfl⟩ := hrequest
      rcases convertRevision_lifecycle hconvert with rfl | ⟨r, hr, -, heq⟩
      · exact h.2
      · rw [heq]
        exact h.2.convert (r := r.head) (by rw [lifecycle_get?_revisions, hr, Option.map_some])

end

/-! ## Runs -/

/-- **The header never lies about its revisions** in a run whose saves name open statuses and whose withdrawals
are visible. -/
theorem header_truthful {db : QuotationDb} (hnumbered : RevisionsNumbered db) (htruthful : db.lifecycle.Truthful)
    {as : List QuotationAction} (hmeets : Meets quotationStep KeepsTruth db as) :
    (run quotationStep db as).lifecycle.Truthful :=
  (run_invariant_of_meets (fun db => RevisionsNumbered db ∧ db.lifecycle.Truthful) step_truthful
    ⟨hnumbered, htruthful⟩ hmeets).2

theorem office_truthful : office.lifecycle.Truthful := by
  intro id q hq
  cases hq

/-- Two open revisions, of which the current one is withdrawn last. -/
def withdrawnInOrder : List QuotationAction :=
  [.save january offer, .send 1, .create january 1 .empty, .reject 1, .save january { offer with
    id := .value 1
    status := .value "Draft" }, .cancel 2]

theorem header_truthful_withdrawn : (run quotationStep office withdrawnInOrder).lifecycle.Truthful :=
  header_truthful office_numbered office_truthful (by decide +kernel)

/-- A new quotation that names itself converted, and two withdrawals of which the current revision is first. -/
theorem header_lies :
    ¬(run quotationStep office [.save january { offer with status := .value "Converted" }]).lifecycle.Truthful ∧
      ¬(run quotationStep office
        [.save january offer, .create january 1 .empty, .reject 2, .reject 1]).lifecycle.Truthful := by
  constructor
  · intro h
    obtain ⟨c, hc, -⟩ := (h 1 ⟨1, "CONVERTED"⟩ (by decide +kernel)).converted rfl
    have hnone : (run quotationStep office
      [.save january { offer with status := .value "Converted" }]).lifecycle.conversions.values = [] := by
      decide +kernel
    rw [hnone] at hc
    cases hc
  · intro h
    have hall : ∀ r ∈ (run quotationStep office
        [.save january offer, .create january 1 .empty, .reject 2, .reject 1]).lifecycle.revisions.rows,
        r.2.status ∈ [.rejected, .cancelled] := by
      decide +kernel
    have hclosed := (h 1 ⟨2, "DRAFT"⟩ (by decide +kernel)).withdrawn fun id r hr _ =>
      hall (id, r) (Table.get?_eq_some.1 hr)
    exact not_closed_draft.1 hclosed

/-! ## The condition is exact -/

section
variable {db db' : QuotationDb}

/-- A withdrawal behind the header leaves it open over withdrawn revisions. -/
theorem withdraw_lies (h : db.lifecycle.Truthful) {verb : String} {status : RevisionStatus} {revisionId : ℕ}
    (hstatus : status ∈ [.rejected, .cancelled]) (hhidden : ¬WithdrawsVisibly db revisionId)
    (hwithdraw : withdrawRevision verb status db revisionId = .ok db') : ¬db'.lifecycle.Truthful := by
  simp only [WithdrawsVisibly, not_forall, not_or] at hhidden
  obtain ⟨r, hr, hopen, q, hq, hpast, hothers⟩ := hhidden
  simp only [Option.mem_def] at hr hq
  have hhead : db.lifecycle.revisions.get? revisionId = some r.head := by
    rw [lifecycle_get?_revisions, hr, Option.map_some]
  have hqhead : db.lifecycle.quotations.get? r.quotationId = some q.head := by
    rw [lifecycle_get?_quotations, hq, Option.map_some]
  have hlive : r.head.status.isLive = true := by
    rw [QuotationRevision.head, RevisionStatus.isLive]
    simp only [List.mem_cons, List.not_mem_nil, or_false] at hopen
    rcases hopen with hs | hs | hs <;> simp [hs]
  have hwritten : db'.lifecycle = db.lifecycle.setStatus revisionId status := by
    simp only [withdrawRevision, revisionWithQuotation_eq_ok.2 ⟨hr, hq⟩, ok_bind] at hwithdraw
    rw [if_neg fun hs : r.status = status => ?_, check_pos hopen, ok_bind,
      if_neg fun hmirrored => hpast hmirrored.1] at hwithdraw
    · cases hwithdraw
      exact setRevisionStatus_lifecycle db revisionId status
    · rw [hs] at hopen
      rcases List.mem_pair.1 hstatus with rfl | rfl <;> revert hopen <;> decide
  intro h'
  rw [hwritten] at h'
  refine Lifecycle.not_closed_of_live h hhead hqhead hlive ((h' r.quotationId q.head hqhead).withdrawn ?_)
  intro id s hs hparent
  by_cases hid : id = revisionId
  · subst hid
    have hrow := Option.some.inj (hs.symm.trans (Lifecycle.get?_setStatus hhead status))
    rw [hrow]
    exact hstatus
  · have hs' : db.lifecycle.revisions.get? id = some s := (Table.get?_modify_of_ne _ hid).symm.trans hs
    rw [lifecycle_get?_revisions, Option.map_eq_some_iff] at hs'
    obtain ⟨t, ht, rfl⟩ := hs'
    by_contra hstands
    exact hothers ⟨(id, t), Table.mem_select.2 ⟨ht, beq_iff_eq.2 hparent⟩, hid, hstands⟩

/-- What is converted after an insert of a revision was converted before. -/
theorem converted_of_insert {l : Lifecycle} {quotations : Table QuotationHead} {r : RevisionHead} {quotationId : ℕ}
    (hlinked : ∀ c ∈ l.conversions.values, ∃ r, l.revisions.get? c = some r)
    (h : ({ l with quotations := quotations, revisions := l.revisions.insert r } : Lifecycle).Converted quotationId) :
    l.Converted quotationId := by
  obtain ⟨c, hc, s, hs, hparent⟩ := h
  obtain ⟨t, ht⟩ := hlinked c hc
  have hsame := Table.get?_insert_of_some (a := r) ht
  rw [Option.some.inj (hs.symm.trans hsame)] at hparent
  exact ⟨c, hc, t, ht, hparent⟩

/-- A save that names a status which is not open shows it over the draft that it writes. -/
theorem save_lies (h : RevisionsNumbered db)
    (hlinked : ∀ c ∈ db.conversions.values, ∃ r, db.revisions.get? c.quotationRevisionId = some r) {env : Env}
    {p : QuotationPayload} {quotationId revisionId : ℕ} (hnames : ¬NamesOpenStatus db p)
    (hsave : saveQuotation env db p = .ok (db', quotationId, revisionId)) : ¬db'.lifecycle.Truthful := by
  obtain ⟨hnumbered, -⟩ := revisionsNumbered_iff.1 h
  simp only [NamesOpenStatus, Classical.not_imp] at hnames
  obtain ⟨hsent, hnames⟩ := hnames
  have hnamed : savedStatus db p = namedStatus db p := by
    unfold savedStatus namedStatus
    cases storedQuotation db p <;> simp [hsent]
  have hlinked' : ∀ c ∈ db.lifecycle.conversions.values, ∃ r, db.lifecycle.revisions.get? c = some r := by
    intro c hc
    rw [QuotationDb.lifecycle, Table.values_map, List.mem_map] at hc
    obtain ⟨c, hc, rfl⟩ := hc
    obtain ⟨r, hr⟩ := hlinked c hc
    exact ⟨r.head, by rw [lifecycle_get?_revisions, hr, Option.map_some]⟩
  have hlie : ∀ {l : Lifecycle} {q : QuotationHead} {id : ℕ} {r : RevisionHead},
      l.quotations.get? quotationId = some q → q.status = savedStatus db p → l.revisions.get? id = some r →
      r.quotationId = quotationId → r.status = .draft →
      (l.Converted quotationId → ∃ r ∈ storedQuotation db p, (conversionForQuotation db r.1).isSome = true) →
      ¬l.Truthful := by
    intro l q id r hq hstatus hr hparent hdraft hconverted htruthful
    have hshows := htruthful quotationId q hq
    rw [hstatus, hnamed] at hshows
    refine hnames ⟨fun hclosed => ?_, fun hcode => hconverted (hshows.converted hcode)⟩
    have hdead := hshows.closed hclosed id r hr hparent
    rw [hdraft] at hdead
    cases hdead
  rcases saveQuotation_lifecycle hnumbered hsave with
    ⟨-, rfl, -, heq⟩ | ⟨q, latest, hstored, hlatest, hwritten⟩
  · rw [heq]
    refine hlie (Table.get?_insert_self _ _) rfl (Table.get?_insert_self _ _) rfl rfl fun hconverted => ?_
    obtain ⟨c, -, r, hr, hparent⟩ := converted_of_insert hlinked' hconverted
    obtain ⟨q, hq⟩ := hnumbered.stored c r hr
    rw [hparent] at hq
    exact absurd (hq.symm.trans (Table.get?_nextId _)) (Option.some_ne_none _)
  · have hhead : db.lifecycle.quotations.get? quotationId = some q.head := by
      rw [lifecycle_get?_quotations, storedQuotation_eq_some hstored, Option.map_some]
    obtain ⟨hget, hparent⟩ := latestRevision_head hlatest
    have hmodified : ∀ f : QuotationHead → QuotationHead,
        (db.lifecycle.quotations.modify quotationId f).get? quotationId = some (f q.head) := by
      intro f
      rw [Table.get?_modify_self, hhead, Option.map_some]
    rcases hwritten with ⟨hdraft, -, heq⟩ | ⟨-, -, heq⟩
    · rw [heq]
      refine hlie (hmodified _) rfl hget hparent hdraft fun hconverted => ?_
      exact ⟨(quotationId, q), hstored, converted_iff.1 (hconverted.within (fun id r hr => ⟨r, hr, rfl⟩) fun _ hc => hc)⟩
    · rw [heq]
      refine hlie (hmodified _) rfl (Table.get?_insert_self _ _) rfl rfl fun hconverted => ?_
      exact ⟨(quotationId, q), hstored, converted_iff.1 (converted_of_insert hlinked' hconverted)⟩

end
end LcsSystem
