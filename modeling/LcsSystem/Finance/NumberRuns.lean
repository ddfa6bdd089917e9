import LcsSystem.Finance.Sequences
import LcsSystem.Finance.Models
import LcsSystem.Lib.Transactions

/-!
# Numbers under interleaving

`allocate_number` and `upsert_sequence` as transactions. An allocation locks the row of its sequence, or
the unique key of a row it creates, until its request commits; an edit reads its row unlocked and locks
it only to write.

The counters alone do not make numbers distinct: two sequences whose numbers go to the same table must
not share a head, and a counter must not fall behind what was handed out under its head. `Apart` says so
of one row, and it is what every write of a row has to keep.
-/

namespace LcsSystem
open Relational Checks Transition Transactions Transactions.Outcome

/-! ## Handed numbers -/

/-- A number that a committed request was given. -/
structure HandedNumber where
  documentType : String
  head : String
  value : ℕ
  width : ℕ
  deriving DecidableEq

def HandedNumber.number (n : HandedNumber) : String := n.head ++ "-" ++ zfill n.value n.width

def DocumentSequence.handed (s : DocumentSequence) : HandedNumber :=
  ⟨s.documentType, s.head, s.lastValue, s.paddingLength⟩

theorem DocumentSequence.number_handed (s : DocumentSequence) : s.handed.number = s.number := rfl

/-- The tables with a unique number column that the finance services write. -/
inductive NumberedTable
  | financialDocuments
  | journalEntries
  deriving DecidableEq

/-- The table that the numbers of a type go to. -/
def numberedTable (documentType : String) : Option NumberedTable :=
  if documentType = "JOURNAL" then some .journalEntries
  else (DocType.ofCode? documentType).map fun _ => .financialDocuments

/-- The numbers of both types are kept distinct by one unique constraint. -/
def ShareTable (a b : String) : Prop := numberedTable a ≠ none ∧ numberedTable a = numberedTable b

instance (a b : String) : Decidable (ShareTable a b) := inferInstanceAs (Decidable (_ ∧ _))

theorem ShareTable.symm {a b : String} (h : ShareTable a b) : ShareTable b a := ⟨h.2 ▸ h.1, h.2.symm⟩

/-- The numbers a table was given, in the order of the commits. -/
def handedTo (table : NumberedTable) (log : List HandedNumber) : List String :=
  (log.filter fun n => numberedTable n.documentType = some table).map HandedNumber.number

/-! ## The transactions -/

inductive NumberRequest
  | allocate (documentType : String) (year : ℕ) (sequencePrefix : Option String)
  | upsert (utcYear : ℕ) (p : SequencePayload)

/-- The next statement of a request. -/
inductive NumberTxn
  | readSequence (documentType : String) (year : ℕ) (sequencePrefix : Option String)
  | insertFirst (s : DocumentSequence)
  | commitFirst (s : DocumentSequence)
  | commitNext (id : ℕ) (s : DocumentSequence)
  | readEdited (utcYear : ℕ) (p : SequencePayload)
  | update (id : ℕ) (s : DocumentSequence) (p : SequencePayload)
  | insertEdited (s : DocumentSequence)

def NumberTxn.locks : NumberTxn → List (String × ℕ)
  | .commitFirst s | .commitNext _ s => [s.key]
  | .readSequence .. | .insertFirst .. | .readEdited .. | .update .. | .insertEdited .. => []

def NumberTxn.next (db : Table DocumentSequence) (free : String × ℕ → Bool) :
    NumberTxn → Transactions.Outcome (Table DocumentSequence) NumberTxn HandedNumber
  | .readSequence documentType year sequencePrefix =>
    match sequenceOf db (documentType, year) with
    | some r => whenFree free (documentType, year) (.continues (.commitNext r.1 r.2))
    | none => .continues (.insertFirst (firstSequence documentType year sequencePrefix))
  | .insertFirst s => whenFree free s.key (match sequenceOf db s.key with
    | some _ => .ends
    | none => .continues (.commitFirst s))
  | .commitFirst s => .commits (db.insert s.next) (some s.next.handed)
  | .commitNext id s =>
    .commits (db.modify id fun r => { r with lastValue := s.lastValue + 1 }) (some s.next.handed)
  | .readEdited utcYear p => orEnd (fun (_ : PUnit.{1}) => match sequenceOf db (p.key utcYear) with
    | some r => .continues (.update r.1 r.2 p)
    | none => .continues (.insertEdited (p.newRow utcYear))) (RecordSchema.validate (sequenceWriteSchema p))
  | .update id s p =>
    if p.apply s = s then .ends
    else whenFree free s.key (.commits (db.modify id (DocumentSequence.writeChanged s (p.apply s))) none)
  | .insertEdited s => whenFree free s.key (match sequenceOf db s.key with
    | some _ => .ends
    | none => .commits (db.insert s) none)

/-- The log is the numbers handed out. -/
def numbering : Protocol (Table DocumentSequence) NumberRequest NumberTxn (String × ℕ) HandedNumber where
  start
    | .allocate documentType year sequencePrefix => .readSequence documentType year sequencePrefix
    | .upsert utcYear p => .readEdited utcYear p
  locks := NumberTxn.locks
  next := NumberTxn.next

/-- `allocate_number` alone is `allocateNumber`. -/
theorem alone_allocate (env : Env) (db : Table DocumentSequence) (documentType : String) :
    numbering.alone 3 db (.readSequence documentType env.utcYear none) = (allocateNumber env db documentType).1 := by
  unfold allocateNumber
  cases hfound : sequenceOf db (documentType, env.utcYear) with
  | some r =>
    have hget := (sequenceOf_eq_some hfound).1
    rw [alone_continues (.commitNext r.1 r.2) (by simp [numbering, NumberTxn.next, hfound]),
      alone_commits _ (some r.2.next.handed) rfl]
    simp only [sequenceOf] at hfound
    simp only [hfound]
    exact Table.modify_congr hget rfl
  | none =>
    rw [alone_continues (.insertFirst (firstSequence documentType env.utcYear none)) (by
        simp [numbering, NumberTxn.next, hfound]),
      alone_continues (.commitFirst (firstSequence documentType env.utcYear none)) (by
        simp [numbering, NumberTxn.next, DocumentSequence.key, firstSequence, hfound]),
      alone_commits _ (some (firstSequence documentType env.utcYear none).next.handed) rfl]
    simp only [sequenceOf] at hfound
    simp only [hfound]
    rfl

/-- `upsert_sequence` alone is `upsertSequence`. -/
theorem alone_upsert (env : Env) (db : Table DocumentSequence) (p : SequencePayload) :
    numbering.alone 2 db (.readEdited env.utcYear p) = orKeep db (upsertSequence env db p) := by
  unfold upsertSequence
  cases hvalid : (RecordSchema.validate (sequenceWriteSchema p) : Result PUnit) with
  | error e => exact alone_ends (by simp [numbering, NumberTxn.next, hvalid, orEnd])
  | ok u =>
    cases hfound : sequenceOf db (p.key env.utcYear) with
    | some r =>
      have hget := (sequenceOf_eq_some hfound).1
      rw [alone_continues (.update r.1 r.2 p) (by simp [numbering, NumberTxn.next, hvalid, hfound])]
      simp only [ok_bind]
      by_cases hsame : p.apply r.2 = r.2
      · rw [alone_ends (by simp [numbering, NumberTxn.next, hsame])]
        exact (Table.modify_eq_self hget hsame).symm
      · rw [alone_commits (db.modify r.1 (r.2.writeChanged (p.apply r.2))) none (by
          simp [numbering, NumberTxn.next, hsame])]
        exact Table.modify_congr hget (p.writeChanged_self r.2)
    | none =>
      rw [alone_continues (.insertEdited (p.newRow env.utcYear)) (by
          simp [numbering, NumberTxn.next, hvalid, hfound]),
        alone_commits (db.insert (p.newRow env.utcYear)) none (by simp [numbering, NumberTxn.next, hfound])]
      rfl

/-! ## Sequences that stay apart -/

/-- No other row whose numbers go to the same table has the head of `s`, and none of the numbers handed
out under that head is beyond its counter. -/
def Apart (db : Table DocumentSequence) (log : List HandedNumber) (id : ℕ) (s : DocumentSequence) : Prop :=
  (∀ r ∈ db.rows, r.1 ≠ id → ShareTable r.2.documentType s.documentType → r.2.head ≠ s.head) ∧
  ∀ n ∈ log, ShareTable n.documentType s.documentType → n.head = s.head → n.value ≤ s.lastValue

/-- A statement that creates a sequence, or changes its prefix or counter, keeps it apart. -/
def KeepsApart (db : Table DocumentSequence) (log : List HandedNumber) : NumberTxn → Prop
  | .commitFirst s | .insertEdited s => Apart db log db.nextId s
  | .update id s p => ∀ r ∈ db.get? id, Apart db log id (DocumentSequence.writeChanged s (p.apply s) r)
  | _ => True

instance (db : Table DocumentSequence) (log : List HandedNumber) (id : ℕ) (s : DocumentSequence) :
    Decidable (Apart db log id s) := inferInstanceAs (Decidable (_ ∧ _))

instance (db : Table DocumentSequence) (log : List HandedNumber) : ∀ t, Decidable (KeepsApart db log t)
  | .commitFirst s | .insertEdited s => inferInstanceAs (Decidable (Apart db log db.nextId s))
  | .update _ _ _ => inferInstanceAs (Decidable (∀ r ∈ _, _))
  | .readSequence .. | .insertFirst .. | .commitNext .. | .readEdited .. => .isTrue trivial

/-- The invariant of the committed sequences and the numbers handed out. -/
structure NumbersSound (db : Table DocumentSequence) (log : List HandedNumber) : Prop where
  keys : ∀ i j s u, db.get? i = some s → db.get? j = some u → s.key = u.key → i = j
  apart : ∀ id s, db.get? id = some s → Apart db log id s
  distinct : log.Pairwise fun n m => ShareTable n.documentType m.documentType → n.number ≠ m.number

/-- What an open transaction relies on: the row it locked is as it was read, or is still missing. -/
def NumberTxn.Holds (db : Table DocumentSequence) : NumberTxn → Prop
  | .commitNext id s => db.get? id = some s
  | .commitFirst s => ∀ id u, db.get? id = some u → u.key ≠ s.key
  | .update id s _ => ∃ r, db.get? id = some r ∧ r.key = s.key
  | _ => True

namespace NumbersSound
variable {db : Table DocumentSequence} {log : List HandedNumber}

/-- A new row under a free key. -/
theorem insert (h : NumbersSound db log) {s : DocumentSequence} (hkey : ∀ id u, db.get? id = some u → u.key ≠ s.key)
    (hs : Apart db log db.nextId s) : NumbersSound (db.insert s) log := by
  refine ⟨?_, ?_, h.distinct⟩
  · intro i j si sj hi hj hsame
    rw [Table.get?_insert] at hi hj
    split at hi
    · next hi' =>
      cases hi
      split at hj
      · next hj' => rw [hi', hj']
      · exact absurd hsame.symm (hkey j sj hj)
    · split at hj
      · cases hj
        exact absurd hsame (hkey i si hi)
      · exact h.keys i j si sj hi hj hsame
  · refine Table.forall_insert ?_ ?_
    · intro i u hu
      obtain ⟨hrows, hlog⟩ := h.apart i u hu
      refine ⟨fun r hr hne hshare => ?_, hlog⟩
      rcases List.mem_append.1 hr with hr | hr
      · exact hrows r hr hne hshare
      · rw [List.mem_singleton.1 hr] at hne hshare ⊢
        exact (hs.1 (i, u) (Table.get?_eq_some.1 hu) (Table.lt_nextId hu).ne hshare.symm).symm
    · refine ⟨fun r hr hne hshare => ?_, hs.2⟩
      rcases List.mem_append.1 hr with hr | hr
      · exact hs.1 r hr hne hshare
      · rw [List.mem_singleton.1 hr] at hne
        exact absurd rfl hne

/-- A row replaced under its key. -/
theorem modify (h : NumbersSound db log) {id : ℕ} {s : DocumentSequence} {f : DocumentSequence → DocumentSequence}
    (hid : db.get? id = some s) (hkey : (f s).key = s.key) (hs : Apart db log id (f s)) :
    NumbersSound (db.modify id f) log := by
  have hget {i : ℕ} {u : DocumentSequence} (hu : (db.modify id f).get? i = some u) :
      i = id ∧ u = f s ∨ i ≠ id ∧ db.get? i = some u := by
    rw [Table.get?_modify] at hu
    split at hu
    · next hi =>
      subst hi
      rw [hid, Option.map_some, Option.some.injEq] at hu
      exact .inl ⟨rfl, hu.symm⟩
    · next hi => exact .inr ⟨hi, hu⟩
  refine ⟨?_, ?_, h.distinct⟩
  · intro i j si sj hi hj hsame
    rcases hget hi with ⟨rfl, rfl⟩ | ⟨-, hi'⟩
    · rcases hget hj with ⟨rfl, -⟩ | ⟨-, hj'⟩
      · rfl
      · exact h.keys i j s sj hid hj' (hkey.symm.trans hsame)
    · rcases hget hj with ⟨rfl, rfl⟩ | ⟨-, hj'⟩
      · exact h.keys i j si s hi' hid (hsame.trans hkey)
      · exact h.keys i j si sj hi' hj' hsame
  · intro i u hu
    have hrow {r : ℕ × DocumentSequence} (hr : r ∈ (db.modify id f).rows) :
        r.1 = id ∧ r.2 = f s ∨ r.1 ≠ id ∧ r ∈ db.rows := by
      rcases hget (Table.get?_eq_some.2 hr) with hnew | ⟨hne, hold⟩
      · exact .inl hnew
      · exact .inr ⟨hne, Table.get?_eq_some.1 hold⟩
    rcases hget hu with ⟨rfl, rfl⟩ | ⟨hne, hu⟩
    · refine ⟨fun r hr hri hshare => ?_, hs.2⟩
      rcases hrow hr with ⟨hi, -⟩ | ⟨-, hr⟩
      · exact absurd hi hri
      · exact hs.1 r hr hri hshare
    · obtain ⟨hrows, hlog⟩ := h.apart i u hu
      refine ⟨fun r hr hri hshare => ?_, hlog⟩
      rcases hrow hr with ⟨-, hf⟩ | ⟨-, hr⟩
      · rw [hf] at hshare ⊢
        exact (hs.1 (i, u) (Table.get?_eq_some.1 hu) hne hshare.symm).symm
      · exact hrows r hr hri hshare

/-- The number of a row is handed out, when its counter is beyond what was handed out before. -/
theorem hand (h : NumbersSound db log) {id : ℕ} {s : DocumentSequence} (hid : db.get? id = some s)
    (hbeyond : ∀ n ∈ log, ShareTable n.documentType s.documentType → n.head = s.head → n.value < s.lastValue) :
    NumbersSound db (log ++ [s.handed]) := by
  refine ⟨h.keys, fun i u hu => ⟨(h.apart i u hu).1, fun n hn hshare hhead => ?_⟩, ?_⟩
  · rcases List.mem_append.1 hn with hn | hn
    · exact (h.apart i u hu).2 n hn hshare hhead
    · rw [List.mem_singleton.1 hn] at hshare hhead ⊢
      by_cases hi : i = id
      · subst hi
        rw [hid, Option.some.injEq] at hu
        rw [← hu]
        exact le_rfl
      · exact absurd hhead ((h.apart i u hu).1 (id, s) (Table.get?_eq_some.1 hid) (Ne.symm hi) hshare)
  · refine List.pairwise_append.2 ⟨h.distinct, List.pairwise_singleton _ _, fun n hn m hm hshare hnumber => ?_⟩
    rw [List.mem_singleton.1 hm] at hshare hnumber
    obtain ⟨hhead, hvalue⟩ := numberText_inj hnumber
    have hlt := hbeyond n hn hshare hhead
    rw [hvalue] at hlt
    exact lt_irrefl _ hlt

end NumbersSound

/-! ## Runs -/

section
variable {db db' : Table DocumentSequence} {log : List HandedNumber} {free : String × ℕ → Bool} {t t' : NumberTxn}
  {event : Option HandedNumber}

theorem NumberTxn.next_locks (h : t.next db free = .continues t') : ∀ k ∈ t'.locks, k ∈ t.locks ∨ free k = true := by
  cases t with
  | readSequence documentType year sequencePrefix =>
    simp only [NumberTxn.next] at h
    split at h
    · next r hfound =>
      obtain ⟨hfree, h⟩ := whenFree_eq_continues.1 h
      cases h
      simpa [NumberTxn.locks, (sequenceOf_eq_some hfound).2] using hfree
    · cases h
      simp [NumberTxn.locks]
  | insertFirst s =>
    simp only [NumberTxn.next, whenFree_eq_continues] at h
    obtain ⟨hfree, h⟩ := h
    split at h <;> cases h
    simpa [NumberTxn.locks] using hfree
  | commitFirst s => cases h
  | commitNext id s => cases h
  | readEdited utcYear p =>
    simp only [NumberTxn.next, orEnd_eq_continues] at h
    obtain ⟨_, -, h⟩ := h
    split at h <;> cases h <;> simp [NumberTxn.locks]
  | update id s p =>
    simp only [NumberTxn.next] at h
    split at h
    · cases h
    · simp at h
  | insertEdited s =>
    simp only [NumberTxn.next, whenFree_eq_continues] at h
    obtain ⟨-, h⟩ := h
    split at h <;> cases h

theorem NumberTxn.Holds.next (h : t.next db free = .continues t') : t'.Holds db := by
  cases t with
  | readSequence documentType year sequencePrefix =>
    simp only [NumberTxn.next] at h
    split at h
    · next r hfound =>
      obtain ⟨-, h⟩ := whenFree_eq_continues.1 h
      cases h
      exact (sequenceOf_eq_some hfound).1
    · cases h
      trivial
  | insertFirst s =>
    simp only [NumberTxn.next, whenFree_eq_continues] at h
    obtain ⟨-, h⟩ := h
    split at h
    · cases h
    · next hnone =>
      cases h
      exact fun id u hu => sequenceOf_eq_none hnone hu
  | commitFirst s => cases h
  | commitNext id s => cases h
  | readEdited utcYear p =>
    simp only [NumberTxn.next, orEnd_eq_continues] at h
    obtain ⟨_, -, h⟩ := h
    split at h
    · next r hfound =>
      cases h
      exact ⟨r.2, (sequenceOf_eq_some hfound).1, rfl⟩
    · cases h
      trivial
  | update id s p =>
    simp only [NumberTxn.next] at h
    split at h
    · cases h
    · simp at h
  | insertEdited s =>
    simp only [NumberTxn.next, whenFree_eq_continues] at h
    obtain ⟨-, h⟩ := h
    split at h <;> cases h

/-- What a commit writes. -/
inductive NumberWrite (db : Table DocumentSequence) (free : String × ℕ → Bool) :
    NumberTxn → Table DocumentSequence → Option HandedNumber → Prop
  | first (s : DocumentSequence) : NumberWrite db free (.commitFirst s) (db.insert s.next) (some s.next.handed)
  | count (id : ℕ) (s : DocumentSequence) : NumberWrite db free (.commitNext id s)
      (db.modify id fun r => { r with lastValue := s.lastValue + 1 }) (some s.next.handed)
  | edit (id : ℕ) (s : DocumentSequence) (p : SequencePayload) (lock : free s.key = true) :
      NumberWrite db free (.update id s p) (db.modify id (DocumentSequence.writeChanged s (p.apply s))) none
  | create (s : DocumentSequence) (lock : free s.key = true) (new : sequenceOf db s.key = none) :
      NumberWrite db free (.insertEdited s) (db.insert s) none

theorem NumberTxn.next_commits (h : t.next db free = .commits db' event) : NumberWrite db free t db' event := by
  cases t with
  | readSequence documentType year sequencePrefix =>
    simp only [NumberTxn.next] at h
    split at h
    · simp at h
    · cases h
  | insertFirst s =>
    simp only [NumberTxn.next, whenFree_eq_commits] at h
    obtain ⟨-, h⟩ := h
    split at h <;> cases h
  | commitFirst s =>
    cases h
    exact .first s
  | commitNext id s =>
    cases h
    exact .count id s
  | readEdited utcYear p =>
    simp only [NumberTxn.next, orEnd_eq_commits] at h
    obtain ⟨_, -, h⟩ := h
    split at h <;> cases h
  | update id s p =>
    simp only [NumberTxn.next] at h
    split at h
    · cases h
    · obtain ⟨hfree, h⟩ := whenFree_eq_commits.1 h
      cases h
      exact .edit id s p hfree
  | insertEdited s =>
    simp only [NumberTxn.next, whenFree_eq_commits] at h
    obtain ⟨hfree, h⟩ := h
    split at h
    · cases h
    · next hnone =>
      cases h
      exact .create s hfree hnone

namespace NumberWrite

/-- A commit that keeps its row apart keeps the invariant. -/
theorem sound (w : NumberWrite db free t db' event) (hsound : NumbersSound db log) (ht : t.Holds db)
    (hapart : KeepsApart db log t) : NumbersSound db' (log ++ event.toList) := by
  cases w with
  | first s =>
    have hcreated : NumbersSound (db.insert s.next) log :=
      hsound.insert (s := s.next) ht ⟨hapart.1, fun n hn hshare hhead => (hapart.2 n hn hshare hhead).trans (Nat.le_succ _)⟩
    exact hcreated.hand (Table.get?_insert_self _ _) fun n hn hshare hhead =>
      Nat.lt_succ_of_le (hapart.2 n hn hshare hhead)
  | count id s =>
    obtain ⟨hrows, hlog⟩ := hsound.apart id s ht
    have hcounted : NumbersSound (db.modify id fun r => { r with lastValue := s.lastValue + 1 }) log :=
      hsound.modify ht rfl ⟨hrows, fun n hn hshare hhead => (hlog n hn hshare hhead).trans (Nat.le_succ _)⟩
    have hget : (db.modify id fun r => { r with lastValue := s.lastValue + 1 }).get? id = some s.next := by
      rw [Table.get?_modify_self, ht]
      rfl
    exact hcounted.hand hget fun n hn hshare hhead => Nat.lt_succ_of_le (hlog n hn hshare hhead)
  | edit id s p =>
    obtain ⟨r, hr, -⟩ := ht
    rw [Option.toList_none, List.append_nil]
    exact hsound.modify hr rfl (hapart r hr)
  | create s lock new =>
    rw [Option.toList_none, List.append_nil]
    exact hsound.insert (fun id u hu => sequenceOf_eq_none new hu) hapart

/-- The key of a row that a transaction locked is not written by another one. -/
theorem frame (w : NumberWrite db free t db' event) (ht : t.Holds db) {u : NumberTxn} (hu : u.Holds db)
    (hlocks : ∀ k ∈ u.locks, k ∉ t.locks ∧ free k = false) : u.Holds db' := by
  -- Rows keep their keys, and a row under another key than the written one stays as it is.
  have hkept : (∃ s : DocumentSequence, db' = db.insert s ∧ (s.key ∈ t.locks ∨ free s.key = true)) ∨
      ∃ id s f, db' = db.modify id f ∧ db.get? id = some s ∧ (∀ r : DocumentSequence, (f r).key = r.key) ∧
        (s.key ∈ t.locks ∨ free s.key = true) := by
    cases w with
    | first s => exact .inl ⟨s.next, rfl, .inl (List.mem_singleton.2 rfl)⟩
    | count id s => exact .inr ⟨id, s, _, rfl, ht, fun _ => rfl, .inl (List.mem_singleton.2 rfl)⟩
    | edit id s p lock =>
      obtain ⟨r, hr, hkey⟩ := ht
      exact .inr ⟨id, r, _, rfl, hr, fun _ => rfl, .inr (hkey ▸ lock)⟩
    | create s lock => exact .inl ⟨s, rfl, .inr lock⟩
  have hother {s v : DocumentSequence} (hs : s.key ∈ t.locks ∨ free s.key = true) (hv : v.key ∈ u.locks) :
      s.key ≠ v.key := by
    intro hsame
    rw [hsame] at hs
    obtain ⟨hnot, hbusy⟩ := hlocks _ hv
    rcases hs with hs | hs
    · exact hnot hs
    · rw [hbusy] at hs
      cases hs
  cases u with
  | readSequence | insertFirst | readEdited | insertEdited => trivial
  | commitFirst v =>
    have hv : v.key ∈ (NumberTxn.commitFirst v).locks := List.mem_singleton.2 rfl
    rcases hkept with ⟨s, rfl, hs⟩ | ⟨id, s, f, rfl, -, hf, -⟩
    · exact Table.forall_insert hu (hother hs hv)
    · intro i r hr
      rw [Table.get?_modify] at hr
      split at hr
      · obtain ⟨r', hr', rfl⟩ := Option.map_eq_some_iff.1 hr
        rw [hf]
        exact hu i r' hr'
      · exact hu i r hr
  | commitNext j v =>
    have hv : v.key ∈ (NumberTxn.commitNext j v).locks := List.mem_singleton.2 rfl
    rcases hkept with ⟨s, rfl, -⟩ | ⟨id, s, f, rfl, hid, -, hs⟩
    · exact Table.get?_insert_of_some hu
    · have hne : j ≠ id := by
        rintro rfl
        have hsame : db.get? j = some v := hu
        rw [hid, Option.some.injEq] at hsame
        exact hother hs hv (congrArg _ hsame)
      exact (Table.get?_modify_of_ne f hne).trans hu
  | update j v p =>
    obtain ⟨r, hr, hkey⟩ := hu
    rcases hkept with ⟨s, rfl, -⟩ | ⟨id, s, f, rfl, -, hf, -⟩
    · exact ⟨r, Table.get?_insert_of_some hr, hkey⟩
    · by_cases hj : j = id
      · subst hj
        exact ⟨f r, by rw [Table.get?_modify_self, hr, Option.map_some], (hf r).trans hkey⟩
      · exact ⟨r, (Table.get?_modify_of_ne f hj).trans hr, hkey⟩

end NumberWrite
end

theorem numbering_rules : Rules numbering NumbersSound (fun db t => t.Holds db) KeepsApart where
  start_locks r := by cases r <;> rfl
  start _ r := by cases r <;> trivial
  acquires h := NumberTxn.next_locks h
  continues _ _ _ h := NumberTxn.Holds.next h
  commits hI hT hC h := (NumberTxn.next_commits h).sound hI hT hC
  frame _ hT hu _ hlocks h := (NumberTxn.next_commits h).frame hT hu hlocks

theorem NumbersSound.nodup {db : Table DocumentSequence} {log : List HandedNumber} (h : NumbersSound db log)
    (table : NumberedTable) : (handedTo table log).Nodup := by
  unfold handedTo List.Nodup
  rw [List.pairwise_map, List.pairwise_filter]
  refine h.distinct.imp fun {n m} hne hn hm => hne ⟨?_, ?_⟩
  · simp_all
  · simp_all

/-- **Numbers are never issued twice**, in every interleaving in which the sequences that are created or
edited stay apart: the numbers that financial documents were given are distinct, and so are those of
journals. -/
theorem numbers_distinct {db : Table DocumentSequence} (hdb : NumbersSound db []) {as : List (Action NumberRequest)}
    (hmeets : Meets numbering.step (Protocol.Admits KeepsApart) (.idle db) as) (table : NumberedTable) :
    (handedTo table (run numbering.step (.idle db) as).log).Nodup :=
  (numbering_rules.run (sound_idle _ _ hdb) hmeets).db.nodup table

theorem NumbersSound.empty : NumbersSound .empty [] where
  keys i j s u hi := by cases hi
  apart id s hs := by cases hs
  distinct := .nil

/-- An edit of a sequence of 2024 that sends its counter. -/
def counterOf (documentType : String) (lastValue : ℚ) : SequencePayload where
  documentType := .value documentType
  year := .value 2024
  sequencePrefix := .absent
  lastValue := .value lastValue
  paddingLength := .absent
  status := .absent

/-- Two invoices and a journal at once, and an invoice after the counter was moved on. -/
def invoicesNumbered : List (Action NumberRequest) :=
  [.start (.allocate "CUSTOMER_INVOICE" 2024 none), .start (.allocate "JOURNAL" 2024 none), .advance 1, .advance 2,
    .advance 1, .start (.allocate "CUSTOMER_INVOICE" 2024 none), .advance 3, .advance 3, .advance 2, .advance 1,
    .advance 3, .advance 2, .start (.upsert 2024 (counterOf "customer_invoice" 10)), .advance 4, .advance 4,
    .start (.allocate "CUSTOMER_INVOICE" 2024 none), .advance 5, .advance 5]

theorem numbers_distinct_invoices :
    (handedTo .financialDocuments (run numbering.step (.idle .empty) invoicesNumbered).log).Nodup :=
  numbers_distinct .empty (by decide +kernel) .financialDocuments

/-- Two types with the same default prefix, and an invoice after the counter was moved back. -/
theorem numbers_issued_twice :
    handedTo .financialDocuments (run numbering.step (.idle .empty)
      [.start (.allocate "OTHER_INCOME" 2024 none), .advance 1, .advance 1, .advance 1,
        .start (.allocate "OTHER_EXPENSE" 2024 none), .advance 2, .advance 2, .advance 2]).log =
      ["OT2024-000001", "OT2024-000001"] ∧
    handedTo .financialDocuments (run numbering.step (.idle .empty)
      [.start (.allocate "CUSTOMER_INVOICE" 2024 none), .advance 1, .advance 1, .advance 1,
        .start (.upsert 2024 (counterOf "CUSTOMER_INVOICE" 0)), .advance 2, .advance 2,
        .start (.allocate "CUSTOMER_INVOICE" 2024 none), .advance 3, .advance 3]).log =
      ["INV2024-000001", "INV2024-000001"] := by
  decide +kernel

end LcsSystem
