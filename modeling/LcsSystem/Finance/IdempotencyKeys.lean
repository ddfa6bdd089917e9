import LcsSystem.Finance.SettlementRuns

/-!
# Idempotency keys

A key is looked up before any lock, the request is not compared with the stored row, and a reversal
deletes the row. What holds in every run of the settlement system: at most one stored allocation has a key,
and a replay describes an allocation that a call with the same key has made. When all calls with one key ask
for the same payment, target and amount, that is at-most-once: an allocation that is gone had a document
that is REVERSED now, and REVERSED is for ever.
-/

namespace LcsSystem
open Relational DecimalArith Checks Transition

/-! ## Requests and the rows they make -/

/-- The row is the one that `r` asks for. -/
structure MadeBy (r : AllocationRequest) (a : FinancialDocumentAllocation) : Prop where
  payment : a.paymentDocumentId = r.paymentId
  target : r.payload.targetDocumentId.get? = some a.targetDocumentId
  amount : a.allocatedAmount.val = roundHalfUp 4 r.amount
  key : a.idempotencyKey = r.key

/-- The answer describes an allocation of the payment, the target and the amount that `r` asks for. -/
structure AllocationResult.Answers (result : AllocationResult) (r : AllocationRequest) : Prop where
  payment : result.paymentDocumentId = r.paymentId
  target : r.payload.targetDocumentId.get? = some result.targetDocumentId
  amount : result.allocatedAmount = roundHalfUp 4 r.amount

instance (result : AllocationResult) (r : AllocationRequest) : Decidable (result.Answers r) :=
  decidable_of_iff (result.paymentDocumentId = r.paymentId ∧
      r.payload.targetDocumentId.get? = some result.targetDocumentId ∧ result.allocatedAmount = roundHalfUp 4 r.amount)
    ⟨fun h => ⟨h.1, h.2.1, h.2.2⟩, fun h => ⟨h.payment, h.target, h.amount⟩⟩

theorem MadeBy.answers {r : AllocationRequest} {a : FinancialDocumentAllocation} (h : MadeBy r a) (db : Db) :
    (replayResult db a).Answers r := ⟨h.payment, h.target, h.amount⟩

/-- Both calls ask for the same payment, target and amount. -/
structure AllocationRequest.SameAsk (r r' : AllocationRequest) : Prop where
  payment : r.paymentId = r'.paymentId
  target : r.payload.targetDocumentId.get? = r'.payload.targetDocumentId.get?
  amount : r.amount = r'.amount

theorem AllocationResult.Answers.of_sameAsk {result : AllocationResult} {r r' : AllocationRequest}
    (h : result.Answers r') (hask : r.SameAsk r') : result.Answers r :=
  ⟨h.payment.trans hask.payment.symm, hask.target.trans h.target, by rw [h.amount, hask.amount]⟩

/-- Calls with one key ask for one thing. -/
def KeysNotReused (asked : AllocationRequest → Prop) : Prop :=
  ∀ r r', asked r → asked r' → r.key.isSome → r.key = r'.key → r.SameAsk r'

def Event.movesUnder (key : String) : Event → Bool
  | .moved r => r.key == some key
  | .replayed _ _ => false

/-- How often the key moved money. -/
def movesOf (log : List Event) (key : String) : ℕ := (log.filter (Event.movesUnder key)).length

theorem movesOf_append (as bs : List Event) (key : String) : movesOf (as ++ bs) key = movesOf as key + movesOf bs key := by
  simp [movesOf]

def Txn.request : Txn → Option AllocationRequest
  | .findKey r | .replay r _ | .lockPayment r | .lockTarget r _ | .sumAllocations r _ _ _ | .storeAllocation r _ _ _ _ =>
    some r
  | .lockReversed _ | .lockSequence _ | .readAllocations _ | .unwind _ _ _ _ => none

theorem Continues.request {db : Db} {free : LockedRow → Bool} {t t' : Txn} (h : Continues db free t t') :
    t'.request = t.request := by
  cases h <;> rfl

theorem allocationOfKey_eq_some {db : Db} {key : Option String} {a : FinancialDocumentAllocation}
    (h : allocationOfKey db key = some a) : a ∈ db.allocations.values ∧ a.idempotencyKey = key ∧ key.isSome = true := by
  unfold allocationOfKey at h
  split at h
  · cases h
  · cases h
  · next k _ => exact ⟨List.mem_of_find?_eq_some h, by simpa using List.find?_some h, rfl⟩

/-! ## Reversed documents -/

/-- The payment or the target of the request is REVERSED. -/
def ReversedSince (db : Db) (r : AllocationRequest) : Prop :=
  ∃ id d, (r.paymentId = id ∨ r.payload.targetDocumentId.get? = some id) ∧
    db.documents.get? id = some d ∧ d.status = .reversed

theorem SameButPaid.get?_of_some {a b : Table Document} (h : SameButPaid a b) {id : ℕ} {d : Document}
    (hd : a.get? id = some d) : ∃ d', b.get? id = some d' ∧ setPaid 0 d' = setPaid 0 d := by
  have hid := h id
  rw [hd] at hid
  exact Option.map_eq_some_iff.1 hid

theorem get?_writeUnwinding_self (db : Db) {documentId : ℕ} {d : Document} (hd : db.documents.get? documentId = some d)
    (allocations : List (ℕ × FinancialDocumentAllocation)) (writes : List (ℕ × Money)) :
    ∃ d', (writeUnwinding db documentId allocations writes).documents.get? documentId = some d' ∧
      d'.status = .reversed := by
  obtain ⟨d₁, hd₁, -⟩ := (SameButPaid.writePaid db.documents writes).get?_of_some hd
  exact ⟨{ d₁ with paidAmount := 0, status := .reversed }, by simp [writeUnwinding, hd₁], rfl⟩

section
variable {db db' : Db} {free : LockedRow → Bool} {t : Txn} {event : Option Event}

/-- REVERSED is for ever. -/
theorem Finishes.reversed (h : Finishes db free t db' event) {id : ℕ} {d : Document}
    (hd : db.documents.get? id = some d) (hreversed : d.status = .reversed) :
    ∃ d', db'.documents.get? id = some d' ∧ d'.status = .reversed := by
  cases h with
  | replay => exact ⟨d, hd, hreversed⟩
  | allocation allocatedSoFar w =>
    obtain ⟨d', hd', hsame⟩ := w.sameButPaid.get?_of_some hd
    exact ⟨d', hd', (status_eq_of_setPaid hsame).trans hreversed⟩
  | @reversal r allocations readSoFar writes unwound lock w =>
    by_cases hid : id = r.documentId
    · subst hid
      exact get?_writeUnwinding_self w.after hd allocations _
    · obtain ⟨d', hd', hsame⟩ := (SameButPaid.writePaid db.documents (changedPaid readSoFar writes)).get?_of_some hd
      rw [writeUnwinding, Table.get?_modify_of_ne _ hid]
      exact ⟨d', hd', (status_eq_of_setPaid hsame).trans hreversed⟩

/-- An allocation that a commit deletes had a document that the commit reverses. -/
theorem Finishes.kept_or_reversed (h : Finishes db free t db' event) (ht : t.Holds db)
    {a : FinancialDocumentAllocation} (ha : a ∈ db.allocations.values) {r : AllocationRequest} (hmade : MadeBy r a) :
    a ∈ db'.allocations.values ∨ ReversedSince db' r := by
  cases h with
  | replay => exact .inl ha
  | allocation allocatedSoFar w =>
    rw [AllocationWrite.after, Table.values_insert]
    exact .inl (List.mem_append_left _ ha)
  | @reversal r' allocations readSoFar writes unwound lock w =>
    obtain ⟨⟨d, hd, -⟩, hread⟩ := ht
    obtain ⟨i, hi⟩ := Table.mem_values.1 ha
    by_cases herased : (allocations.any fun q => q.1 == i) = true
    · obtain ⟨q, hq, hid⟩ := List.any_eq_true.1 herased
      obtain ⟨htouches, -, hsame⟩ := hread q hq
      obtain rfl : a = q.2 := hsame a (beq_iff_eq.1 hid ▸ hi)
      obtain ⟨d', hd', hreversed⟩ := get?_writeUnwinding_self w.after hd allocations (changedPaid readSoFar writes)
      refine .inr ⟨r'.documentId, d', ?_, hd', hreversed⟩
      simp only [FinancialDocumentAllocation.touches, Bool.or_eq_true, beq_iff_eq] at htouches
      rcases htouches with hp | ht
      · exact .inl (hmade.payment ▸ hp)
      · exact .inr (by rw [hmade.target, ht])
    · refine .inl (Table.mem_values.2 ⟨i, ?_⟩)
      have hget : w.after.allocations.get? i = some a := hi
      rw [writeUnwinding, Table.get?_erase, hget]
      simp only [Bool.not_eq_true] at herased
      simp [Option.filter, herased]

end

/-- The row of a successful allocation is the one that was asked for. -/
theorem AllocationWrite.madeBy {r : AllocationRequest} {db : Db} {payment : Document} {targetId : ℕ} {target : Document}
    (w : AllocationWrite r.env db r.paymentId targetId payment target r.amount r.key)
    (hasked : r.payload.targetDocumentId.get? = some targetId) : MadeBy r w.row :=
  ⟨rfl, hasked, w.stored_val, rfl⟩

/-! ## The system -/

/-- An open call was made, and the row it is about to describe was made under its key. -/
structure Txn.Keyed (asked : AllocationRequest → Prop) (log : List Event) (t : Txn) : Prop where
  request : ∀ r, t.request = some r → asked r
  replay : ∀ r existing, t = .replay r existing →
    r.key.isSome ∧ existing.idempotencyKey = r.key ∧ ∃ r', .moved r' ∈ log ∧ MadeBy r' existing

theorem Txn.Keyed.append {asked : AllocationRequest → Prop} {log : List Event} {t : Txn} (h : t.Keyed asked log)
    (events : List Event) : t.Keyed asked (log ++ events) := by
  refine ⟨h.request, fun r existing ht => ?_⟩
  obtain ⟨hsome, hkey, r', hr', hmade⟩ := h.replay r existing ht
  exact ⟨hsome, hkey, r', List.mem_append_left _ hr', hmade⟩

/-- The invariant: who made the stored rows, who was answered, and how often a key moved money. -/
structure Keyed (asked : AllocationRequest → Prop) (s : System) : Prop extends Held s where
  txns : ∀ i t, s.txns.get? i = some t → t.Keyed asked s.log
  moved : ∀ r, .moved r ∈ s.log →
    asked r ∧ ((∃ a ∈ s.db.allocations.values, MadeBy r a) ∨ ReversedSince s.db r)
  stored : ∀ a ∈ s.db.allocations.values, a.idempotencyKey.isSome → ∃ r, .moved r ∈ s.log ∧ MadeBy r a
  unique : ∀ i j a b, s.db.allocations.get? i = some a → s.db.allocations.get? j = some b →
    a.idempotencyKey.isSome → a.idempotencyKey = b.idempotencyKey → i = j
  replayed : ∀ r result, .replayed r result ∈ s.log →
    asked r ∧ r.key.isSome ∧ ∃ r', .moved r' ∈ s.log ∧ r'.key = r.key ∧ result.Answers r'
  once : KeysNotReused asked → ∀ key, movesOf s.log key ≤ 1

namespace Keyed
variable {asked : AllocationRequest → Prop} {s : System}

/-- A call that commits with a key is the first to move money under it. -/
theorem movesOf_eq_zero (hs : Keyed asked s) (hreuse : KeysNotReused asked) {r : AllocationRequest} (hr : asked r)
    {payment target : Document} {targetId : ℕ} (hasked : r.payload.targetDocumentId.get? = some targetId)
    (hpayment : s.db.documents.get? r.paymentId = some payment) (htarget : s.db.documents.get? targetId = some target)
    (hallocatable : Allocatable payment target r.amount)
    (hfresh : ∀ old ∈ s.db.allocations.values, r.key.isSome → old.idempotencyKey ≠ r.key) {key : String}
    (hkey : r.key = some key) : movesOf s.log key = 0 := by
  have hsome : r.key.isSome = true := by simp [hkey]
  refine List.length_eq_zero_iff.2 (List.filter_eq_nil_iff.2 fun event hevent hmoves => ?_)
  cases event with
  | replayed r' result => cases hmoves
  | moved r' =>
    have hkey' : r.key = r'.key := hkey.trans (beq_iff_eq.1 hmoves).symm
    obtain ⟨hr', hrow | ⟨id, d, hside, hd, hreversed⟩⟩ := hs.moved r' hevent
    · obtain ⟨a, ha, hmade⟩ := hrow
      exact hfresh a ha hsome (hmade.key.trans hkey'.symm)
    · have hsame := hreuse r r' hr hr' hsome hkey'
      rcases hside with hp | ht
      · rw [← hp, ← hsame.payment, hpayment, Option.some.injEq] at hd
        rw [← hd, hallocatable.payment_posted] at hreversed
        cases hreversed
      · rw [← hsame.target, hasked, Option.some.injEq] at ht
        rw [← ht, htarget, Option.some.injEq] at hd
        rw [← hd, hallocatable.target_posted] at hreversed
        cases hreversed

/-- The stored rows after a commit: the old ones, and the new one of an allocation. -/
theorem stored_of_finishes (hs : Keyed asked s) {id : ℕ} {t : Txn} (ht : s.txns.get? id = some t) {db' : Db}
    {event : Option Event} (h : Finishes s.db (s.free id) t db' event) :
    (∀ a ∈ db'.allocations.values, a.idempotencyKey.isSome → ∃ r, .moved r ∈ s.log ++ event.toList ∧ MadeBy r a) ∧
      ∀ i j a b, db'.allocations.get? i = some a → db'.allocations.get? j = some b →
        a.idempotencyKey.isSome → a.idempotencyKey = b.idempotencyKey → i = j := by
  have hgrow {e : Event} (he : e ∈ s.log) : e ∈ s.log ++ event.toList := List.mem_append_left _ he
  have hold {a : FinancialDocumentAllocation} (ha : a ∈ s.db.allocations.values) (hkey : a.idempotencyKey.isSome) :
      ∃ r, .moved r ∈ s.log ++ event.toList ∧ MadeBy r a := by
    obtain ⟨r, hr, hmade⟩ := hs.stored a ha hkey
    exact ⟨r, hgrow hr, hmade⟩
  have hholds := hs.holds id t ht
  cases h with
  | replay => exact ⟨fun a ha => hold ha, hs.unique⟩
  | @allocation r payment targetId target allocatedSoFar w =>
    have hmade : MadeBy r w.row := w.madeBy hholds.2.1
    refine ⟨fun a ha hkey => ?_, fun i j a b hi hj hkey hsame => ?_⟩
    · rw [AllocationWrite.after, Table.values_insert] at ha
      rcases List.mem_append.1 ha with ha | ha
      · exact hold ha hkey
      · exact ⟨r, by simp, List.mem_singleton.1 ha ▸ hmade⟩
    · rw [AllocationWrite.after, Table.get?_insert] at hi hj
      split at hi
      · next hi' =>
        split at hj
        · next hj' => rw [hi', hj']
        · cases hi
          have hb := Table.mem_values.2 ⟨j, hj⟩
          exact absurd (hsame.symm.trans hmade.key) (w.key_fresh b hb (hmade.key ▸ hkey))
      · split at hj
        · cases hj
          have ha := Table.mem_values.2 ⟨i, hi⟩
          exact absurd (hsame.trans hmade.key) (w.key_fresh a ha (hmade.key ▸ hsame ▸ hkey))
        · exact hs.unique i j a b hi hj hkey hsame
  | @reversal r allocations readSoFar writes unwound lock w =>
    have hget {i : ℕ} {a : FinancialDocumentAllocation}
        (hi : (writeUnwinding w.after r.documentId allocations (changedPaid readSoFar writes)).allocations.get? i =
          some a) : s.db.allocations.get? i = some a := by
      rw [writeUnwinding, Table.get?_erase, Option.filter_eq_some_iff] at hi
      exact hi.1
    refine ⟨fun a ha hkey => ?_, fun i j a b hi hj => hs.unique i j a b (hget hi) (hget hj)⟩
    obtain ⟨i, hi⟩ := Table.mem_values.1 ha
    exact hold (Table.mem_values.2 ⟨i, hget hi⟩) hkey

/-- The calls that have moved money after a commit: their rows are stored, or one of their documents is REVERSED. -/
theorem moved_of_finishes (hs : Keyed asked s) {id : ℕ} {t : Txn} (ht : s.txns.get? id = some t) {db' : Db}
    {event : Option Event} (h : Finishes s.db (s.free id) t db' event) :
    ∀ r, .moved r ∈ s.log ++ event.toList →
      asked r ∧ ((∃ a ∈ db'.allocations.values, MadeBy r a) ∨ ReversedSince db' r) := by
  have hholds := hs.holds id t ht
  intro r hr
  rcases List.mem_append.1 hr with hold | hnew
  · obtain ⟨hasked, hrow | ⟨d, doc, hside, hd, hreversed⟩⟩ := hs.moved r hold
    · obtain ⟨a, ha, hmade⟩ := hrow
      refine ⟨hasked, ?_⟩
      rcases h.kept_or_reversed hholds ha hmade with hkept | hreversed
      · exact .inl ⟨a, hkept, hmade⟩
      · exact .inr hreversed
    · obtain ⟨doc', hd', hreversed'⟩ := h.reversed hd hreversed
      exact ⟨hasked, .inr ⟨d, doc', hside, hd', hreversed'⟩⟩
  · cases h with
    | replay => simp at hnew
    | reversal => simp at hnew
    | @allocation r' payment targetId target allocatedSoFar w =>
      obtain rfl : r = r' := by simpa using hnew
      refine ⟨(hs.txns id _ ht).request r rfl, .inl ⟨w.row, ?_, w.madeBy hholds.2.1⟩⟩
      simp [AllocationWrite.after]

/-- The calls that were answered with a stored row after a commit. -/
theorem replayed_of_finishes (hs : Keyed asked s) {id : ℕ} {t : Txn} (ht : s.txns.get? id = some t) {db' : Db}
    {event : Option Event} (h : Finishes s.db (s.free id) t db' event) :
    ∀ r result, .replayed r result ∈ s.log ++ event.toList →
      asked r ∧ r.key.isSome ∧ ∃ r', .moved r' ∈ s.log ++ event.toList ∧ r'.key = r.key ∧ result.Answers r' := by
  intro r result hr
  rcases List.mem_append.1 hr with hold | hnew
  · obtain ⟨hasked, hsome, r', hr', hkey, hanswers⟩ := hs.replayed r result hold
    exact ⟨hasked, hsome, r', List.mem_append_left _ hr', hkey, hanswers⟩
  · cases h with
    | replay r₀ existing =>
      obtain ⟨rfl, rfl⟩ : r = r₀ ∧ result = replayResult s.db existing := by simpa using hnew
      obtain ⟨hrequest, hreplay⟩ := hs.txns id _ ht
      obtain ⟨hsome, hkey, r', hr', hmade⟩ := hreplay r existing rfl
      exact ⟨hrequest r rfl, hsome, r', List.mem_append_left _ hr', hmade.key.symm.trans hkey, hmade.answers s.db⟩
    | reversal => simp at hnew
    | allocation => simp at hnew

theorem once_of_finishes (hs : Keyed asked s) {id : ℕ} {t : Txn} (ht : s.txns.get? id = some t) {db' : Db}
    {event : Option Event} (h : Finishes s.db (s.free id) t db' event) (hreuse : KeysNotReused asked) (key : String) :
    movesOf (s.log ++ event.toList) key ≤ 1 := by
  have hold := hs.once hreuse key
  have hholds := hs.holds id t ht
  rw [movesOf_append]
  cases h with
  | replay => simpa [movesOf, Event.movesUnder] using hold
  | reversal => simpa [movesOf] using hold
  | @allocation r payment targetId target allocatedSoFar w =>
    by_cases hkey : r.key = some key
    · obtain ⟨-, hasked, hallocatable, hpayment, htarget⟩ := hholds
      have hrequest := (hs.txns id _ ht).request r rfl
      rw [hs.movesOf_eq_zero hreuse hrequest hasked hpayment htarget hallocatable w.key_fresh hkey]
      simp [movesOf, Event.movesUnder, hkey]
    · simpa [movesOf, Event.movesUnder, hkey] using hold

/-- **Step lemma for a commit.** -/
theorem finishes (hs : Keyed asked s) {id : ℕ} {t : Txn} (ht : s.txns.get? id = some t) {db' : Db}
    {event : Option Event} (h : Finishes s.db (s.free id) t db' event)
    (hheld : Held { s.finish id with db := db', log := s.log ++ event.toList }) :
    Keyed asked { s.finish id with db := db', log := s.log ++ event.toList } := by
  obtain ⟨hstored, hunique⟩ := hs.stored_of_finishes ht h
  exact {
    toHeld := hheld
    txns := fun i ti hi => (hs.txns i ti (get?_finish hi).2).append event.toList
    moved := hs.moved_of_finishes ht h
    stored := hstored
    unique := hunique
    replayed := hs.replayed_of_finishes ht h
    once := hs.once_of_finishes ht h }

/-- A statement in between only changes its transaction. -/
theorem withTxns (hs : Keyed asked s) {txns : Table Txn} (hheld : Held { s with txns := txns })
    (htxns : ∀ i t, txns.get? i = some t → t.Keyed asked s.log) : Keyed asked { s with txns := txns } :=
  { hs with toHeld := hheld, txns := htxns }

/-- Only the look-up of the key leads to a replay. -/
theorem continues (hs : Keyed asked s) {free : LockedRow → Bool} {t t' : Txn} (h : Continues s.db free t t')
    (ht : t.Keyed asked s.log) : t'.Keyed asked s.log := by
  refine ⟨fun r hr => ht.request r (h.request.symm.trans hr), ?_⟩
  rintro r existing rfl
  cases h with
  | replay found =>
    obtain ⟨hmem, hkey, hsome⟩ := allocationOfKey_eq_some found
    obtain ⟨r', hr', hmade⟩ := hs.stored existing hmem (hkey ▸ hsome)
    exact ⟨hsome, hkey, r', hr', hmade⟩

end Keyed

/-- **Step lemma.** -/
theorem systemStep_keyed {asked : AllocationRequest → Prop} (s : System) (a : SystemAction) (hs : Keyed asked s)
    (ha : ∀ r, a = .allocate r → asked r) : Keyed asked (systemStep s a) := by
  have hheld := systemStep_held s a hs.toHeld
  generalize hs' : systemStep s a = s' at hheld
  cases hs' ▸ systemStep_moves s a with
  | stays => exact hs
  | allocate r =>
    refine hs.withTxns hheld (Table.forall_insert hs.txns ⟨fun r' hr' => ?_, fun _ _ ht => by cases ht⟩)
    exact Option.some.inj hr' ▸ ha r rfl
  | reverse r =>
    refine hs.withTxns hheld (Table.forall_insert hs.txns ⟨fun r' hr' => ?_, fun _ _ ht => by cases ht⟩)
    cases hr'
  | @continues id t t' ht h =>
    exact hs.withTxns hheld (Table.forall_modify ht hs.txns (hs.continues h (hs.txns id t ht)))
  | ends _ id => exact hs.withTxns hheld fun i t hi => hs.txns i t (get?_finish hi).2
  | finishes ht h => exact hs.finishes ht h hheld

/-- **Keys over a run**, calls and reversals interleaved in any order. One stored allocation at most has a
key, and a replay describes an allocation made under its key. When no key is reused for another request, each
key moves money at most once and every replay describes what its call asked for. -/
theorem run_keys {db : Db} (h : ∀ a ∈ db.allocations.values, a.idempotencyKey = none) (as : List SystemAction) :
    let s := run systemStep (.idle db) as
    (∀ i j a b, s.db.allocations.get? i = some a → s.db.allocations.get? j = some b →
      a.idempotencyKey.isSome → a.idempotencyKey = b.idempotencyKey → i = j) ∧
    (∀ r result, .replayed r result ∈ s.log → ∃ r', .moved r' ∈ s.log ∧ r'.key = r.key ∧ result.Answers r') ∧
    (KeysNotReused (fun r => .allocate r ∈ as) →
      (∀ key, movesOf s.log key ≤ 1) ∧ ∀ r result, .replayed r result ∈ s.log → result.Answers r) := by
  intro s
  have hidle : Keyed (fun r => .allocate r ∈ as) (.idle db) :=
    { held_idle db with
      txns := fun _ _ hi => by cases hi
      moved := fun _ hr => by cases hr
      stored := fun a ha hkey => by simp [h a ha] at hkey
      unique := fun i j a b hi _ hkey => by simp [h a (Table.mem_values.2 ⟨i, hi⟩)] at hkey
      replayed := fun _ _ hr => by cases hr
      once := fun _ _ => Nat.zero_le 1 }
  have hs : Keyed (fun r => .allocate r ∈ as) s :=
    run_invariant_of_meets _ systemStep_keyed hidle
      (meets_of_forall_mem fun _ a ha r hr => (hr ▸ ha : .allocate r ∈ as))
  refine ⟨hs.unique, fun r result hr => (hs.replayed r result hr).2.2, fun hreuse => ⟨hs.once hreuse, ?_⟩⟩
  intro r result hr
  obtain ⟨hasked, hsome, r', hr', hkey, hanswers⟩ := hs.replayed r result hr
  exact hanswers.of_sameAsk (hreuse r r' hasked (hs.moved r' hr').1 hsome hkey.symm)

/-- The same call twice. -/
def payTwice : List SystemAction :=
  payInvoice 2 50 (some "key") :: toTheEnd 1 ++ payInvoice 2 50 (some "key") :: toTheEnd 2

theorem run_keys_payTwice :
    ∃ db, postedReceipt = .ok db ∧ movesOf (run systemStep (.idle db) payTwice).log "key" = 1 := by
  obtain ⟨db, hposted, hallocations, hmoved⟩ := okAnd_eq_true.1
    (show okAnd postedReceipt (fun db => (∀ a ∈ db.allocations.values, a.idempotencyKey = none) ∧
      1 ≤ movesOf (run systemStep (.idle db) payTwice).log "key") = true by decide +kernel)
  have hreuse : KeysNotReused fun r => .allocate r ∈ payTwice := by
    intro r r' hr hr' _ _
    have hcall {q : AllocationRequest} (hq : .allocate q ∈ payTwice) :
        q = ⟨january, 1, ⟨.value 2, .value 50⟩, some "key"⟩ := by
      simpa [payTwice, payInvoice, toTheEnd, List.mem_replicate] using hq
    rw [hcall hr, hcall hr']
    exact ⟨rfl, rfl, rfl⟩
  exact ⟨db, hposted, le_antisymm (((run_keys hallocations payTwice).2.2 hreuse).1 "key") hmoved⟩

/-- The key of a stored allocation on a call for another invoice. -/
def payOtherInvoice : List SystemAction :=
  payInvoice 2 50 (some "key") :: toTheEnd 1 ++ payInvoice 3 20 (some "key") :: toTheEnd 2

/-- The same, after the first invoice was reversed. -/
def payOtherInvoiceLater : List SystemAction :=
  payInvoice 2 50 (some "key") :: toTheEnd 1 ++ reverseInvoice :: toTheEnd 2 ++
    payInvoice 3 20 (some "key") :: toTheEnd 3

/-- A key that is reused for another request is answered with an allocation that was not asked for, or, when
a reversal has deleted that allocation, moves money again. -/
theorem reused_key :
    ∃ db, postedReceipt = .ok db ∧
      (∃ r result, .replayed r result ∈ (run systemStep (.idle db) payOtherInvoice).log ∧ ¬result.Answers r) ∧
      movesOf (run systemStep (.idle db) payOtherInvoiceLater).log "key" = 2 := by
  obtain ⟨db, hposted, hreplayed, hmoves⟩ := okAnd_eq_true.1
    (show okAnd postedReceipt (fun db =>
      ((run systemStep (.idle db) payOtherInvoice).log.any fun
        | .replayed r result => !decide (result.Answers r)
        | .moved _ => false) = true ∧
      movesOf (run systemStep (.idle db) payOtherInvoiceLater).log "key" = 2) = true by decide +kernel)
  obtain ⟨event, hevent, hanswer⟩ := List.any_eq_true.1 hreplayed
  cases event with
  | moved r => cases hanswer
  | replayed r result => exact ⟨db, hposted, ⟨r, result, hevent, by simpa using hanswer⟩, hmoves⟩

end LcsSystem
