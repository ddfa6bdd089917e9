import LcsSystem.Quotations.Lifecycle

/-!
# The status that a quotation shows

What the status of a quotation says about its revisions, and which operations of the lifecycle keep it true.
An operation within one quotation leaves the others alone (`Within`), so each lemma is about the one that it
relabels.
-/

namespace LcsSystem
open Relational

namespace Lifecycle

/-- REJECTED or CANCELLED: nothing is on offer any more. -/
def Closed (status : String) : Prop := status = RevisionStatus.rejected.code ∨ status = RevisionStatus.cancelled.code

instance (status : String) : Decidable (Closed status) := inferInstanceAs (Decidable (_ ∨ _))

def Converted (l : Lifecycle) (quotationId : ℕ) : Prop :=
  ∃ c ∈ l.conversions.values, ∃ r, l.revisions.get? c = some r ∧ r.quotationId = quotationId

/-- What the status that a quotation shows says about its revisions. -/
structure Shows (l : Lifecycle) (quotationId : ℕ) (status : String) : Prop where
  converted : status = RevisionStatus.converted.code → l.Converted quotationId
  closed : Closed status → ∀ id r, l.revisions.get? id = some r → r.quotationId = quotationId → r.status.isLive = false
  withdrawn : (∀ id r, l.revisions.get? id = some r → r.quotationId = quotationId →
    r.status ∈ [.rejected, .cancelled]) → Closed status

/-- No quotation lies about its revisions. -/
def Truthful (l : Lifecycle) : Prop := ∀ id q, l.quotations.get? id = some q → l.Shows id q.status

/-- A step within one quotation: the revisions of the others stay, and so does what was converted. -/
structure Within (quotationId : ℕ) (l l' : Lifecycle) : Prop where
  revisions : ∀ id r, r.quotationId ≠ quotationId → (l'.revisions.get? id = some r ↔ l.revisions.get? id = some r)
  conversions : ∀ c ∈ l.conversions.values, c ∈ l'.conversions.values

section
variable {l l' : Lifecycle}

theorem Shows.beside {quotationId other : ℕ} {status : String} (hwithin : Within quotationId l l')
    (hne : other ≠ quotationId) (h : l.Shows other status) : l'.Shows other status where
  converted hstatus := by
    obtain ⟨c, hc, r, hr, hparent⟩ := h.converted hstatus
    exact ⟨c, hwithin.conversions c hc, r, (hwithin.revisions c r (hparent ▸ hne)).2 hr, hparent⟩
  closed hstatus id r hr hparent := h.closed hstatus id r ((hwithin.revisions id r (hparent ▸ hne)).1 hr) hparent
  withdrawn hall := h.withdrawn fun id r hr hparent =>
    hall id r ((hwithin.revisions id r (hparent ▸ hne)).2 hr) hparent

/-- A status that is not closed, beside a revision that was not withdrawn. -/
theorem Shows.of_open {quotationId id : ℕ} {status : String} {r : RevisionHead} (hr : l.revisions.get? id = some r)
    (hparent : r.quotationId = quotationId) (hopen : r.status ∉ [RevisionStatus.rejected, .cancelled])
    (hconverted : status = RevisionStatus.converted.code → l.Converted quotationId) (hclosed : ¬Closed status) :
    l.Shows quotationId status where
  converted := hconverted
  closed h := absurd h hclosed
  withdrawn hall := absurd (hall id r hr hparent) hopen

theorem Converted.within {quotationId : ℕ} (h : l.Converted quotationId)
    (hkeep : ∀ id r, l.revisions.get? id = some r → ∃ r', l'.revisions.get? id = some r' ∧ r'.quotationId = r.quotationId)
    (hconversions : ∀ c ∈ l.conversions.values, c ∈ l'.conversions.values) : l'.Converted quotationId := by
  obtain ⟨c, hc, r, hr, hparent⟩ := h
  obtain ⟨r', hr', hsame⟩ := hkeep c r hr
  exact ⟨c, hconversions c hc, r', hr', hsame.trans hparent⟩

theorem Shows.congr {quotationId : ℕ} {status : String} (hrevisions : l'.revisions = l.revisions)
    (hconversions : l'.conversions = l.conversions) (h : l.Shows quotationId status) : l'.Shows quotationId status where
  converted hstatus := by
    obtain ⟨c, hc, r, hr, hparent⟩ := h.converted hstatus
    exact ⟨c, hconversions ▸ hc, r, hrevisions ▸ hr, hparent⟩
  closed hstatus id r hr := h.closed hstatus id r (hrevisions ▸ hr)
  withdrawn hall := h.withdrawn fun id r hr => hall id r (hrevisions ▸ hr)

/-- The other quotations are kept, and this one shows the truth. -/
theorem Truthful.within {quotationId : ℕ} {status : String} (h : l.Truthful) (hwithin : Within quotationId l l')
    (hheads : ∀ id q, l'.quotations.get? id = some q →
      id = quotationId ∧ q.status = status ∨ id ≠ quotationId ∧ l.quotations.get? id = some q)
    (hshows : l'.Shows quotationId status) : l'.Truthful := by
  intro id q hq
  rcases hheads id q hq with ⟨rfl, rfl⟩ | ⟨hne, hold⟩
  · exact hshows
  · exact (h id q hold).beside hwithin hne

theorem heads_modify {quotations : Table QuotationHead} {quotationId : ℕ} {status : String}
    {f : QuotationHead → QuotationHead} (hf : ∀ q, (f q).status = status) (id : ℕ) (q : QuotationHead)
    (hq : (quotations.modify quotationId f).get? id = some q) :
    id = quotationId ∧ q.status = status ∨ id ≠ quotationId ∧ quotations.get? id = some q := by
  rw [Table.get?_modify] at hq
  split at hq
  · next hid =>
    obtain ⟨old, -, rfl⟩ := Option.map_eq_some_iff.1 hq
    exact .inl ⟨hid, hf old⟩
  · next hid => exact .inr ⟨hid, hq⟩

theorem within_refl (quotationId : ℕ) (l : Lifecycle) : Within quotationId l l := ⟨fun _ _ _ => Iff.rfl, fun _ hc => hc⟩

theorem Within.relabel {quotationId : ℕ} (h : Within quotationId l l') (status : String) :
    Within quotationId l (l'.relabel quotationId status) := ⟨h.revisions, h.conversions⟩

theorem within_setStatus {quotationId revisionId : ℕ} {r : RevisionHead} (hr : l.revisions.get? revisionId = some r)
    (hparent : r.quotationId = quotationId) (status : RevisionStatus) :
    Within quotationId l (l.setStatus revisionId status) where
  revisions id s hs := by
    rw [setStatus, Table.get?_modify]
    split
    · next hid =>
      subst hid
      have hne : r ≠ s := fun heq => hs (heq ▸ hparent)
      rw [hr, Option.map_some]
      simp only [Option.some.injEq]
      refine ⟨fun heq => absurd ?_ hs, fun heq => absurd heq hne⟩
      rw [← heq]
      exact hparent
    · rfl
  conversions _ hc := hc

theorem within_insert (quotations : Table QuotationHead) (r : RevisionHead) :
    Within r.quotationId l { l with quotations := quotations, revisions := l.revisions.insert r } where
  revisions id s hs := by
    simp only [Table.get?_insert]
    split
    · next hid =>
      rw [hid, Table.get?_nextId]
      refine ⟨fun heq => ?_, nofun⟩
      rw [Option.some.injEq] at heq
      exact absurd (congrArg RevisionHead.quotationId heq.symm) hs
    · rfl
  conversions _ hc := hc

theorem get?_setStatus {revisionId : ℕ} {r : RevisionHead} (hr : l.revisions.get? revisionId = some r)
    (status : RevisionStatus) : (l.setStatus revisionId status).revisions.get? revisionId =
      some { r with status := status } := by
  rw [setStatus, Table.get?_modify_self, hr, Option.map_some]

theorem Truthful.register (h : l.Truthful) {status : String} (hconverted : status ≠ RevisionStatus.converted.code)
    (hclosed : ¬Closed status) : (l.register status).Truthful := by
  have hnew : (l.register status).revisions.get? l.revisions.nextId = some ⟨l.quotations.nextId, 1, .draft⟩ :=
    Table.get?_insert_self _ _
  refine h.within (within_insert _ ⟨l.quotations.nextId, 1, .draft⟩) (fun id q hq => ?_)
    (.of_open hnew rfl (by simp) (fun hstatus => absurd hstatus hconverted) hclosed)
  rw [Lifecycle.register, Table.get?_insert] at hq
  split at hq
  · next hid =>
    cases hq
    exact .inl ⟨hid, rfl⟩
  · next hid => exact .inr ⟨hid, hq⟩

theorem Truthful.reopen (h : l.Truthful) {quotationId : ℕ} {q : QuotationHead} {status : String}
    (hconverted : status = RevisionStatus.converted.code → l.Converted quotationId) (hclosed : ¬Closed status) :
    (l.reopen quotationId q status).Truthful := by
  have hnew : (l.reopen quotationId q status).revisions.get? l.revisions.nextId =
      some ⟨quotationId, q.currentRevisionNo + 1, .draft⟩ := Table.get?_insert_self _ _
  refine h.within (within_insert _ ⟨quotationId, q.currentRevisionNo + 1, .draft⟩)
    (heads_modify fun _ => rfl) (.of_open hnew rfl (by simp) (fun hstatus => ?_) hclosed)
  exact (hconverted hstatus).within (fun id r hr => ⟨r, Table.get?_insert_of_some hr, rfl⟩) fun _ hc => hc

/-- Another status, beside a draft. -/
theorem Truthful.relabel (h : l.Truthful) {quotationId id : ℕ} {r : RevisionHead} {status : String}
    (hr : l.revisions.get? id = some r) (hparent : r.quotationId = quotationId) (hdraft : r.status = .draft)
    (hconverted : status = RevisionStatus.converted.code → l.Converted quotationId) (hclosed : ¬Closed status) :
    (l.relabel quotationId status).Truthful := by
  have hopen : r.status ∉ [RevisionStatus.rejected, .cancelled] := by
    rw [hdraft]
    decide
  have hshows : l.Shows quotationId status := .of_open hr hparent hopen hconverted hclosed
  exact h.within ((within_refl quotationId l).relabel status) (heads_modify fun _ => rfl) (.congr (l := l) rfl rfl hshows)

/-- A status of a revision that the quotation shows as well. -/
theorem Truthful.issue (h : l.Truthful) {revisionId : ℕ} {r : RevisionHead} {status : RevisionStatus}
    (hr : l.revisions.get? revisionId = some r) (hstatus : status ∉ [.converted, .rejected, .cancelled]) :
    ((l.setStatus revisionId status).relabel r.quotationId status.code).Truthful := by
  have hlabel : status.code ≠ RevisionStatus.converted.code ∧ ¬Closed status.code := by
    cases status <;> first | decide | simp at hstatus
  refine h.within ((within_setStatus hr rfl status).relabel _) (heads_modify fun _ => rfl)
    (.of_open (get?_setStatus hr status) rfl ?_ (fun hcode => absurd hcode hlabel.1) hlabel.2)
  intro hmem
  exact hstatus (List.mem_cons_of_mem _ hmem)

theorem Truthful.accept (h : l.Truthful) {revisionId : ℕ} {r : RevisionHead}
    (hr : l.revisions.get? revisionId = some r) : (l.accept r.quotationId revisionId).Truthful := by
  have hnew : (l.accept r.quotationId revisionId).revisions.get? revisionId = some { r with status := .accepted } := by
    rw [get?_accept, hr, Option.map_some, acceptedStatus, if_pos rfl]
  refine h.within ⟨fun id s hs => ?_, fun _ hc => hc⟩ (heads_modify fun _ => rfl)
    (.of_open hnew rfl (by simp) (fun hcode => absurd hcode (by decide)) (by decide))
  have hkeep : ∀ t : RevisionHead, t.quotationId ≠ r.quotationId → l.revisions.get? id = some t →
      acceptedStatus r.quotationId revisionId id t = t.status := by
    intro t ht hget
    have hne : id ≠ revisionId := by
      rintro rfl
      rw [hr, Option.some.injEq] at hget
      exact ht (hget ▸ rfl)
    rw [acceptedStatus, if_neg hne, if_neg fun hc => ht hc.1]
  rw [get?_accept]
  constructor
  · intro hget
    obtain ⟨t, ht, rfl⟩ := Option.map_eq_some_iff.1 hget
    rw [hkeep t hs ht]
    exact ht
  · intro hget
    rw [hget, Option.map_some, hkeep s hs hget]

theorem Truthful.convert (h : l.Truthful) {revisionId : ℕ} {r : RevisionHead}
    (hr : l.revisions.get? revisionId = some r) : (l.convert r.quotationId revisionId).Truthful := by
  have hnew := get?_setStatus hr .converted
  have hconverted : (l.convert r.quotationId revisionId).Converted r.quotationId := by
    refine ⟨revisionId, ?_, _, hnew, rfl⟩
    simp [Lifecycle.convert, Lifecycle.relabel, Lifecycle.setStatus]
  have hwithin := within_setStatus hr rfl .converted
  refine h.within ⟨hwithin.revisions, fun c hc => ?_⟩ (heads_modify fun _ => rfl)
    (.of_open hnew rfl (by simp) (fun _ => hconverted) (by decide))
  simp only [Lifecycle.convert, Lifecycle.relabel, Lifecycle.setStatus, Table.values_insert, List.mem_append]
  exact .inl hc

theorem not_closed_of_live (h : l.Truthful) {revisionId : ℕ} {r : RevisionHead} {q : QuotationHead}
    (hr : l.revisions.get? revisionId = some r) (hq : l.quotations.get? r.quotationId = some q)
    (hlive : r.status.isLive = true) : ¬Closed q.status := by
  intro hclosed
  rw [(h _ q hq).closed hclosed revisionId r hr rfl] at hlive
  cases hlive

/-- The last live revision is withdrawn, and the quotation shows it. -/
theorem Truthful.mirror (h : l.Truthful) {revisionId : ℕ} {r : RevisionHead} {status : RevisionStatus}
    (hr : l.revisions.get? revisionId = some r) (hstatus : status ∈ [.rejected, .cancelled])
    (hlast : ∀ id s, l.revisions.get? id = some s → s.quotationId = r.quotationId → id ≠ revisionId →
      s.status.isLive = false) : ((l.setStatus revisionId status).relabel r.quotationId status.code).Truthful := by
  have hclosed : Closed status.code ∧ status.code ≠ RevisionStatus.converted.code ∧ status.isLive = false := by
    rcases List.mem_pair.1 hstatus with rfl | rfl <;> decide
  refine h.within ((within_setStatus hr rfl status).relabel _) (heads_modify fun _ => rfl)
    ⟨fun hcode => absurd hcode hclosed.2.1, fun _ id s hs hparent => ?_, fun _ => hclosed.1⟩
  by_cases hid : id = revisionId
  · subst hid
    have hrow := Option.some.inj (hs.symm.trans (get?_setStatus hr status))
    rw [hrow]
    exact hclosed.2.2
  · exact hlast id s ((Table.get?_modify_of_ne _ hid).symm.trans hs) hparent hid

/-- A revision is withdrawn beside one that was not. -/
theorem Truthful.withdraw (h : l.Truthful) {revisionId : ℕ} {r : RevisionHead} {status : RevisionStatus}
    (hr : l.revisions.get? revisionId = some r) (hlive : r.status.isLive = true) {id : ℕ} {s : RevisionHead}
    (hs : l.revisions.get? id = some s) (hparent : s.quotationId = r.quotationId) (hne : id ≠ revisionId)
    (hopen : s.status ∉ [RevisionStatus.rejected, .cancelled]) : (l.setStatus revisionId status).Truthful := by
  have hwithin := within_setStatus hr rfl status
  intro i q hq
  by_cases hi : i = r.quotationId
  · subst hi
    have hs' : (l.setStatus revisionId status).revisions.get? id = some s :=
      (Table.get?_modify_of_ne _ hne).trans hs
    refine .of_open hs' hparent hopen (fun hstatus => ?_) (not_closed_of_live h hr hq hlive)
    refine ((h _ q hq).converted hstatus).within (fun j t ht => ?_) fun _ hc => hc
    by_cases hj : j = revisionId
    · subst hj
      rw [hr, Option.some.injEq] at ht
      subst ht
      exact ⟨_, get?_setStatus hr status, rfl⟩
    · exact ⟨t, (Table.get?_modify_of_ne _ hj).trans ht, rfl⟩
  · exact (h i q hq).beside hwithin hi

end
end Lifecycle
end LcsSystem
