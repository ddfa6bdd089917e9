import LcsSystem.Quotations.Models

/-!
# The life of a quotation

What the requests on quotations are about, without the terms they write: a quotation has revisions numbered
from 1, opens the next one as a draft, moves single ones through their statuses and shows a status of its
own. `Numbered` and `OneAccepted` are properties of such a register; each operation has one lemma for each of
them.
-/

namespace LcsSystem
open Relational

structure QuotationHead where
  currentRevisionNo : ℕ
  status : String
  deriving DecidableEq

structure RevisionHead where
  quotationId : ℕ
  revisionNo : ℕ
  status : RevisionStatus
  deriving DecidableEq

structure Lifecycle where
  quotations : Table QuotationHead
  revisions : Table RevisionHead
  /-- The revision of each conversion. -/
  conversions : Table ℕ

namespace Lifecycle

def revisionsOf (l : Lifecycle) (quotationId : ℕ) : List (ℕ × RevisionHead) :=
  l.revisions.select fun r => r.quotationId == quotationId

def numbersOf (l : Lifecycle) (quotationId : ℕ) : List ℕ := (l.revisionsOf quotationId).map fun r => r.2.revisionNo

theorem mem_revisionsOf {l : Lifecycle} {quotationId id : ℕ} {r : RevisionHead} :
    (id, r) ∈ l.revisionsOf quotationId ↔ l.revisions.get? id = some r ∧ r.quotationId = quotationId := by
  rw [revisionsOf, Table.mem_select, beq_iff_eq]

/-! ## Operations -/

/-- A new quotation with its first draft. -/
def register (l : Lifecycle) (status : String) : Lifecycle :=
  { l with
    quotations := l.quotations.insert ⟨1, status⟩
    revisions := l.revisions.insert ⟨l.quotations.nextId, 1, .draft⟩ }

/-- The quotation shows another status. -/
def relabel (l : Lifecycle) (quotationId : ℕ) (status : String) : Lifecycle :=
  { l with quotations := l.quotations.modify quotationId fun q => { q with status := status } }

/-- The next draft of the quotation `q`. -/
def reopen (l : Lifecycle) (quotationId : ℕ) (q : QuotationHead) (status : String) : Lifecycle :=
  { l with
    quotations := l.quotations.modify quotationId fun _ => ⟨q.currentRevisionNo + 1, status⟩
    revisions := l.revisions.insert ⟨quotationId, q.currentRevisionNo + 1, .draft⟩ }

def setStatus (l : Lifecycle) (revisionId : ℕ) (status : RevisionStatus) : Lifecycle :=
  { l with revisions := l.revisions.modify revisionId fun r => { r with status := status } }

/-- The revisions of a quotation that give way to an accepted one. -/
def competing (l : Lifecycle) (quotationId revisionId : ℕ) : List (ℕ × RevisionHead) :=
  (l.revisionsOf quotationId).filter fun r => r.1 ≠ revisionId ∧ r.2.status ∈ [.sent, .accepted, .submitted]

def supersede (l : Lifecycle) (ids : List ℕ) : Lifecycle :=
  { l with revisions := l.revisions.modifyAll ids fun r => { r with status := .superseded } }

/-- The revision is accepted in the place of those that compete with it. -/
def accept (l : Lifecycle) (quotationId revisionId : ℕ) : Lifecycle :=
  (((l.setStatus revisionId .accepted).relabel quotationId RevisionStatus.accepted.code).supersede
    ((l.competing quotationId revisionId).map Prod.fst))

def convert (l : Lifecycle) (quotationId revisionId : ℕ) : Lifecycle :=
  (({ l with conversions := l.conversions.insert revisionId } : Lifecycle).setStatus revisionId .converted).relabel
    quotationId RevisionStatus.converted.code

/-- The quotation is gone with its revisions. -/
def remove (l : Lifecycle) (quotationId : ℕ) (conversions : Table ℕ) : Lifecycle where
  quotations := l.quotations.erase fun i _ => i == quotationId
  revisions := l.revisions.erase fun _ r => r.quotationId == quotationId
  conversions := conversions

/-! ## Numbers -/

/-- The revisions of each quotation are numbered 1, 2, … in the order they were opened; the last number is
the current one. -/
structure Numbered (l : Lifecycle) : Prop where
  stored : ∀ id r, l.revisions.get? id = some r → ∃ q, l.quotations.get? r.quotationId = some q
  positive : ∀ id q, l.quotations.get? id = some q → 0 < q.currentRevisionNo
  numbers : ∀ id q, l.quotations.get? id = some q → l.numbersOf id = List.range' 1 q.currentRevisionNo

section
variable {l : Lifecycle}

theorem numbersOf_setStatus (l : Lifecycle) (revisionId : ℕ) (status : RevisionStatus) (quotationId : ℕ) :
    (l.setStatus revisionId status).numbersOf quotationId = l.numbersOf quotationId := by
  have hselect : (l.setStatus revisionId status).revisionsOf quotationId =
      (l.revisionsOf quotationId).map (Table.modifyRow revisionId fun r => { r with status := status }) := by
    refine Table.select_modify ?_ l.revisions revisionId
    exact fun _ => rfl
  rw [numbersOf, numbersOf, hselect, List.map_map]
  refine List.map_congr_left fun r _ => ?_
  simp only [Function.comp, Table.modifyRow]
  split <;> rfl

theorem Numbered.setStatus (h : l.Numbered) (revisionId : ℕ) (status : RevisionStatus) :
    (l.setStatus revisionId status).Numbered where
  stored id r hr := by
    rw [Lifecycle.setStatus, Table.get?_modify] at hr
    split at hr
    · obtain ⟨old, hold, rfl⟩ := Option.map_eq_some_iff.1 hr
      exact h.stored id old hold
    · exact h.stored id r hr
  positive := h.positive
  numbers id q hq := (numbersOf_setStatus l revisionId status id).trans (h.numbers id q hq)

theorem Numbered.supersede (h : l.Numbered) (ids : List ℕ) : (l.supersede ids).Numbered := by
  induction ids generalizing l with
  | nil => exact h
  | cons id ids ih => exact ih (h.setStatus id .superseded)

theorem Numbered.relabel (h : l.Numbered) (quotationId : ℕ) (status : String) :
    (l.relabel quotationId status).Numbered := by
  have hhead : ∀ id q, (l.relabel quotationId status).quotations.get? id = some q →
      ∃ old, l.quotations.get? id = some old ∧ q.currentRevisionNo = old.currentRevisionNo := by
    intro id q hq
    rw [Lifecycle.relabel, Table.get?_modify] at hq
    split at hq
    · obtain ⟨old, hold, rfl⟩ := Option.map_eq_some_iff.1 hq
      exact ⟨old, hold, rfl⟩
    · exact ⟨q, hq, rfl⟩
  refine ⟨fun id r hr => ?_, fun id q hq => ?_, fun id q hq => ?_⟩
  · obtain ⟨q, hq⟩ := h.stored id r hr
    rw [Lifecycle.relabel, Table.get?_modify]
    split <;> simp [hq]
  · obtain ⟨old, hold, hno⟩ := hhead id q hq
    exact hno ▸ h.positive id old hold
  · obtain ⟨old, hold, hno⟩ := hhead id q hq
    rw [hno]
    exact h.numbers id old hold

/-- A quotation that is not stored has no revisions. -/
theorem Numbered.revisionsOf_nextId (h : l.Numbered) : l.revisionsOf l.quotations.nextId = [] := by
  refine List.eq_nil_iff_forall_not_mem.2 fun r hr => ?_
  obtain ⟨hget, hparent⟩ := mem_revisionsOf.1 hr
  obtain ⟨q, hq⟩ := h.stored r.1 r.2 hget
  rw [hparent, Table.get?_nextId] at hq
  cases hq

theorem revisionsOf_insert (l : Lifecycle) (r : RevisionHead) (quotations : Table QuotationHead) (quotationId : ℕ) :
    ({ l with quotations := quotations, revisions := l.revisions.insert r } : Lifecycle).revisionsOf quotationId =
      l.revisionsOf quotationId ++ if r.quotationId == quotationId then [(l.revisions.nextId, r)] else [] :=
  Table.select_insert l.revisions r _

theorem Numbered.register (h : l.Numbered) (status : String) : (l.register status).Numbered := by
  have hids : ∀ id q, l.quotations.get? id = some q → l.quotations.nextId ≠ id := by
    intro id q hq
    exact (Table.lt_nextId hq).ne'
  refine ⟨?_, ?_, ?_⟩
  · refine Table.forall_insert (fun id r hr => ?_) ⟨_, Table.get?_insert_self _ _⟩
    obtain ⟨q, hq⟩ := h.stored id r hr
    exact ⟨q, Table.get?_insert_of_some hq⟩
  · exact Table.forall_insert h.positive Nat.one_pos
  · refine Table.forall_insert (fun id q hq => ?_) ?_
    · rw [numbersOf, Lifecycle.register, revisionsOf_insert, if_neg (by simpa using hids id q hq), List.append_nil]
      exact h.numbers id q hq
    · rw [numbersOf, Lifecycle.register, revisionsOf_insert, h.revisionsOf_nextId]
      simp

theorem Numbered.reopen (h : l.Numbered) {quotationId : ℕ} {q : QuotationHead}
    (hq : l.quotations.get? quotationId = some q) (status : String) : (l.reopen quotationId q status).Numbered := by
  have hhead : ∀ id, (∃ q, l.quotations.get? id = some q) →
      ∃ q', (l.reopen quotationId q status).quotations.get? id = some q' := by
    rintro id ⟨q, hq⟩
    rw [Lifecycle.reopen, Table.get?_modify]
    split <;> simp [hq]
  refine ⟨?_, ?_, ?_⟩
  · exact Table.forall_insert (fun id r hr => hhead _ (h.stored id r hr)) (hhead _ ⟨q, hq⟩)
  · exact Table.forall_modify hq h.positive (Nat.succ_pos _)
  · intro id q' hq'
    rw [numbersOf, Lifecycle.reopen, revisionsOf_insert, List.map_append]
    rw [Lifecycle.reopen, Table.get?_modify] at hq'
    split at hq'
    · next hid =>
      subst hid
      obtain ⟨old, -, rfl⟩ := Option.map_eq_some_iff.1 hq'
      have hnumbers := h.numbers id q hq
      rw [numbersOf] at hnumbers
      rw [hnumbers, if_pos (by simp)]
      simp [List.range'_concat, Nat.add_comm]
    · next hid =>
      rw [if_neg (by simpa using Ne.symm hid), List.map_nil, List.append_nil]
      exact h.numbers id q' hq'

theorem Numbered.accept (h : l.Numbered) (quotationId revisionId : ℕ) : (l.accept quotationId revisionId).Numbered :=
  ((h.setStatus revisionId .accepted).relabel quotationId _).supersede _

theorem Numbered.convert (h : l.Numbered) (quotationId revisionId : ℕ) :
    (l.convert quotationId revisionId).Numbered := by
  have hrecorded : ({ l with conversions := l.conversions.insert revisionId } : Lifecycle).Numbered :=
    ⟨h.stored, h.positive, h.numbers⟩
  exact (hrecorded.setStatus revisionId .converted).relabel quotationId _

theorem get?_quotations_remove {quotationId id : ℕ} {conversions : Table ℕ} {q : QuotationHead} :
    (l.remove quotationId conversions).quotations.get? id = some q ↔
      l.quotations.get? id = some q ∧ id ≠ quotationId := by
  simp [remove, Table.get?_erase, Option.filter_eq_some_iff]

theorem get?_revisions_remove {quotationId id : ℕ} {conversions : Table ℕ} {r : RevisionHead} :
    (l.remove quotationId conversions).revisions.get? id = some r ↔
      l.revisions.get? id = some r ∧ r.quotationId ≠ quotationId := by
  simp [remove, Table.get?_erase, Option.filter_eq_some_iff]

theorem Numbered.remove (h : l.Numbered) (quotationId : ℕ) (conversions : Table ℕ) :
    (l.remove quotationId conversions).Numbered := by
  refine ⟨fun id r hr => ?_, fun id q hq => ?_, fun id q hq => ?_⟩
  · obtain ⟨hold, hne⟩ := get?_revisions_remove.1 hr
    obtain ⟨q, hq⟩ := h.stored id r hold
    exact ⟨q, get?_quotations_remove.2 ⟨hq, hne⟩⟩
  · exact h.positive id q (get?_quotations_remove.1 hq).1
  · obtain ⟨hold, hne⟩ := get?_quotations_remove.1 hq
    have hselect : (l.revisions.erase fun _ r => r.quotationId == quotationId).select
        (fun r => r.quotationId == id) = l.revisionsOf id := by
      refine Table.select_erase_of_not fun _ r _ hr => ?_
      rw [beq_iff_eq.1 hr]
      exact beq_false_of_ne hne
    have hnumbers : (l.remove quotationId conversions).numbersOf id = l.numbersOf id := congrArg (List.map _) hselect
    rw [hnumbers]
    exact h.numbers id q hold

/-- The last revision. -/
theorem Numbered.le_current (h : l.Numbered) {quotationId : ℕ} {q : QuotationHead}
    (hq : l.quotations.get? quotationId = some q) {r : ℕ × RevisionHead} (hr : r ∈ l.revisionsOf quotationId) :
    r.2.revisionNo ≤ q.currentRevisionNo := by
  have hmem : r.2.revisionNo ∈ l.numbersOf quotationId := List.mem_map.2 ⟨r, hr, rfl⟩
  rw [h.numbers quotationId q hq, List.mem_range'_1] at hmem
  omega

theorem Numbered.exists_current (h : l.Numbered) {quotationId : ℕ} {q : QuotationHead}
    (hq : l.quotations.get? quotationId = some q) :
    ∃ r ∈ l.revisionsOf quotationId, r.2.revisionNo = q.currentRevisionNo := by
  have hpos := h.positive quotationId q hq
  have hmem : q.currentRevisionNo ∈ l.numbersOf quotationId := by
    rw [h.numbers quotationId q hq, List.mem_range'_1]
    omega
  exact List.mem_map.1 hmem

/-! ## Acceptance -/

/-- No quotation has two accepted revisions. -/
def OneAccepted (l : Lifecycle) : Prop :=
  ∀ i j r s, l.revisions.get? i = some r → l.revisions.get? j = some s → r.quotationId = s.quotationId →
    r.status = .accepted → s.status = .accepted → i = j

/-- As long as every accepted revision was accepted before. -/
theorem OneAccepted.of_old {l' : Lifecycle} (h : l.OneAccepted)
    (hold : ∀ i r, l'.revisions.get? i = some r → r.status = .accepted → l.revisions.get? i = some r) :
    l'.OneAccepted := by
  intro i j r s hr hs hparent hraccepted hsaccepted
  exact h i j r s (hold i r hr hraccepted) (hold j s hs hsaccepted) hparent hraccepted hsaccepted

theorem OneAccepted.setStatus (h : l.OneAccepted) (revisionId : ℕ) {status : RevisionStatus}
    (hstatus : status ≠ .accepted) : (l.setStatus revisionId status).OneAccepted := by
  refine h.of_old fun i r hr haccepted => ?_
  rw [Lifecycle.setStatus, Table.get?_modify] at hr
  split at hr
  · obtain ⟨old, -, rfl⟩ := Option.map_eq_some_iff.1 hr
    exact absurd haccepted hstatus
  · exact hr

theorem OneAccepted.register (h : l.OneAccepted) (status : String) : (l.register status).OneAccepted := by
  refine h.of_old fun i r hr haccepted => ?_
  rw [Lifecycle.register, Table.get?_insert] at hr
  split at hr
  · cases hr
    cases haccepted
  · exact hr

theorem OneAccepted.reopen (h : l.OneAccepted) (quotationId : ℕ) (q : QuotationHead) (status : String) :
    (l.reopen quotationId q status).OneAccepted := by
  refine h.of_old fun i r hr haccepted => ?_
  rw [Lifecycle.reopen, Table.get?_insert] at hr
  split at hr
  · cases hr
    cases haccepted
  · exact hr

theorem OneAccepted.remove (h : l.OneAccepted) (quotationId : ℕ) (conversions : Table ℕ) :
    (l.remove quotationId conversions).OneAccepted :=
  h.of_old fun _ _ hr _ => (get?_revisions_remove.1 hr).1

theorem mem_competing {quotationId revisionId id : ℕ} :
    id ∈ (l.competing quotationId revisionId).map Prod.fst ↔ id ≠ revisionId ∧
      ∃ r, l.revisions.get? id = some r ∧ r.quotationId = quotationId ∧ r.status ∈ [.sent, .accepted, .submitted] := by
  simp only [competing, List.mem_map, List.mem_filter, decide_eq_true_eq]
  constructor
  · rintro ⟨⟨i, r⟩, ⟨hr, hne, hstatus⟩, rfl⟩
    obtain ⟨hget, hparent⟩ := mem_revisionsOf.1 hr
    exact ⟨hne, r, hget, hparent, hstatus⟩
  · rintro ⟨hne, r, hget, hparent, hstatus⟩
    exact ⟨(id, r), ⟨mem_revisionsOf.2 ⟨hget, hparent⟩, hne, hstatus⟩, rfl⟩

/-- What an acceptance makes of a revision. -/
def acceptedStatus (quotationId revisionId id : ℕ) (r : RevisionHead) : RevisionStatus :=
  if id = revisionId then .accepted
  else if r.quotationId = quotationId ∧ r.status ∈ [.sent, .accepted, .submitted] then .superseded
  else r.status

theorem get?_accept (l : Lifecycle) (quotationId revisionId id : ℕ) :
    (l.accept quotationId revisionId).revisions.get? id =
      (l.revisions.get? id).map fun r => { r with status := acceptedStatus quotationId revisionId id r } := by
  simp only [accept, supersede, relabel, setStatus]
  rw [Table.get?_modifyAll]
  case hf => exact fun _ => rfl
  by_cases hid : id = revisionId
  · have hnot : id ∉ (l.competing quotationId revisionId).map Prod.fst := fun h => (mem_competing.1 h).1 hid
    rw [if_neg hnot, hid, Table.get?_modify_self]
    simp [acceptedStatus]
  · rw [Table.get?_modify_of_ne _ hid]
    cases hr : l.revisions.get? id with
    | none => simp
    | some r =>
      have hmem : id ∈ (l.competing quotationId revisionId).map Prod.fst ↔
          r.quotationId = quotationId ∧ r.status ∈ [.sent, .accepted, .submitted] := by
        rw [mem_competing, hr]
        simp [hid]
      by_cases hcompetes : r.quotationId = quotationId ∧ r.status ∈ [.sent, .accepted, .submitted]
      · have hgone : acceptedStatus quotationId revisionId id r = .superseded := by
          rw [acceptedStatus, if_neg hid, if_pos hcompetes]
        rw [if_pos (hmem.2 hcompetes), Option.map_some, Option.map_some, hgone]
      · have hsame : acceptedStatus quotationId revisionId id r = r.status := by
          rw [acceptedStatus, if_neg hid, if_neg hcompetes]
        rw [if_neg (mt hmem.1 hcompetes), Option.map_some, hsame]

theorem OneAccepted.accept (h : l.OneAccepted) {quotationId revisionId : ℕ} {accepted : RevisionHead}
    (hrevision : l.revisions.get? revisionId = some accepted) (hparent : accepted.quotationId = quotationId) :
    (l.accept quotationId revisionId).OneAccepted := by
  -- an accepted revision of the quotation is the one that was accepted
  have hone : ∀ i r, (l.accept quotationId revisionId).revisions.get? i = some r → r.status = .accepted →
      i = revisionId ∨ r.quotationId ≠ quotationId ∧ l.revisions.get? i = some r := by
    intro i r hr haccepted
    rw [get?_accept] at hr
    obtain ⟨old, hold, rfl⟩ := Option.map_eq_some_iff.1 hr
    by_cases hi : i = revisionId
    · exact .inl hi
    · simp only [acceptedStatus, if_neg hi] at haccepted ⊢
      split at haccepted
      · cases haccepted
      · next hother =>
        have hne : old.quotationId ≠ quotationId := fun hq => hother ⟨hq, by simp [haccepted]⟩
        refine .inr ⟨hne, ?_⟩
        rw [if_neg hother]
        exact hold
  have hquotation : ∀ r, (l.accept quotationId revisionId).revisions.get? revisionId = some r →
      r.quotationId = quotationId := by
    intro r hr
    rw [get?_accept, hrevision, Option.map_some, Option.some.injEq] at hr
    exact hr ▸ hparent
  intro i j r s hr hs hsame hraccepted hsaccepted
  rcases hone i r hr hraccepted with rfl | ⟨hrne, hrold⟩
  · rcases hone j s hs hsaccepted with rfl | ⟨hsne, -⟩
    · rfl
    · exact absurd (hsame ▸ hquotation r hr) hsne
  · rcases hone j s hs hsaccepted with rfl | ⟨-, hsold⟩
    · exact absurd (hsame.trans (hquotation s hs)) hrne
    · exact h i j r s hrold hsold hsame hraccepted hsaccepted

end
end Lifecycle
end LcsSystem
