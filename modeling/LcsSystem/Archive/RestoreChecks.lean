import LcsSystem.Archive.LifecycleRuns

/-!
# The restore check and the database

`_restore_conflict` (`src/backend/app/modules/archive/service.py:307-341`) asks for each unique index whether an active row
has the same columns. The index, `active_unique_index` of `modules/master_data/models.py:29-42`, holds the rows that are
not archived, and in PostgreSQL a key with a NULL in it equals no other. The two differ where a row has a NULL in a unique
key that an active row has too: `restoreConflict_duplicate_iff`.
-/

namespace LcsSystem
open Relational

/-! ## Unique indexes -/

/-- The rows have the same key in the index, and it has no NULL. -/
def SameKey (names : List String) (a b : EntityRow) : Prop :=
  ∀ name ∈ names, a.column name ≠ .null ∧ b.column name = a.column name

/-- A unique index over the rows that are not archived. -/
def UniqueActive (names : List String) (t : Table EntityRow) : Prop :=
  ∀ i j a b, t.get? i = some a → t.get? j = some b → a.deletedAt = none → b.deletedAt = none → SameKey names a b → i = j

/-- What the database accepts at a commit. -/
def IndexesHold (model : EntityModel) (t : Table EntityRow) : Prop := ∀ names ∈ model.uniqueColumns, UniqueActive names t

/-- `deleted_at` is cleared. -/
def clearDeleted (t : Table EntityRow) (id : ℕ) : Table EntityRow :=
  t.modify id fun row => { row with deletedAt := none, deletedByUserId := none }

def duplicateMessage : String := "An active record already uses the same unique value."

/-- An active row has the key of the row. -/
def ClashesIn (t : Table EntityRow) (id : ℕ) (row : EntityRow) (names : List String) : Prop :=
  ∃ j other, t.get? j = some other ∧ j ≠ id ∧ other.deletedAt = none ∧ SameKey names row other

/-- An active row has the same columns, and NULL where the row has NULL. -/
def NullTwin (db : ArchiveDb) (model : EntityModel) (id : ℕ) (row : EntityRow) : Prop :=
  ∃ names ∈ model.uniqueColumns, (∃ name ∈ names, row.column name = .null) ∧
    ∃ j other, (db.rows model).get? j = some other ∧ j ≠ id ∧ other.deletedAt = none ∧
      ∀ name ∈ names, other.column name = row.column name

section
variable {db : ArchiveDb} {model : EntityModel} {id : ℕ} {row : EntityRow}

/-! ## What the check reports -/

theorem dependency_ne_duplicate (table : EntityModel) :
    "Required dependency " ++ table.tableName ++ " no longer exists." ≠ duplicateMessage ∧
      "Required dependency " ++ table.tableName ++ " is still archived." ≠ duplicateMessage := by
  cases table <;> decide

/-- The check compares the columns, and NULL with NULL. -/
theorem restoreConflict_eq_duplicate : restoreConflict db model id row = some duplicateMessage ↔
    ∃ names ∈ model.uniqueColumns, ∃ j other, (db.rows model).get? j = some other ∧ j ≠ id ∧ other.deletedAt = none ∧
      ∀ name ∈ names, other.column name = row.column name := by
  have hany : (model.uniqueColumns.any fun names => (db.rows model).rows.any fun other =>
      names.all (fun name => other.2.column name == row.column name) && other.1 != id && other.2.deletedAt.isNone) = true ↔
      ∃ names ∈ model.uniqueColumns, ∃ j other, (db.rows model).get? j = some other ∧ j ≠ id ∧ other.deletedAt = none ∧
        ∀ name ∈ names, other.column name = row.column name := by
    simp only [List.any_eq_true, Bool.and_eq_true, List.all_eq_true, beq_iff_eq, bne_iff_ne, Option.isNone_iff_eq_none,
      Prod.exists, Table.get?_eq_some]
    refine exists_congr fun names => and_congr_right fun _ => exists_congr fun j => exists_congr fun other => ?_
    constructor
    · rintro ⟨hmem, ⟨hcolumns, hne⟩, hactive⟩
      exact ⟨hmem, hne, hactive, hcolumns⟩
    · rintro ⟨hmem, hne, hactive, hcolumns⟩
      exact ⟨hmem, ⟨hcolumns, hne⟩, hactive⟩
  rw [← hany, restoreConflict]
  constructor
  · intro h
    split at h
    · assumption
    · obtain ⟨key, -, hkey⟩ := List.exists_of_findSome?_eq_some h
      exfalso
      split at hkey
      · split at hkey
        · exact (dependency_ne_duplicate key.2).1 (Option.some.inj hkey)
        · split at hkey
          · exact (dependency_ne_duplicate key.2).2 (Option.some.inj hkey)
          · cases hkey
      · cases hkey
  · intro h
    rw [if_pos h]
    rfl

/-- A duplicate is a key of an active row, or agrees with one in a NULL. -/
theorem duplicate_iff_clash_or_null : restoreConflict db model id row = some duplicateMessage ↔
    (∃ names ∈ model.uniqueColumns, ClashesIn (db.rows model) id row names) ∨ NullTwin db model id row := by
  rw [restoreConflict_eq_duplicate]
  constructor
  · rintro ⟨names, hnames, j, other, hother, hne, hactive, hcolumns⟩
    by_cases hnull : ∃ name ∈ names, row.column name = .null
    · exact .inr ⟨names, hnames, hnull, j, other, hother, hne, hactive, hcolumns⟩
    · refine .inl ⟨names, hnames, j, other, hother, hne, hactive, fun name hname => ⟨fun heq => ?_, hcolumns name hname⟩⟩
      exact hnull ⟨name, hname, heq⟩
  · rintro (⟨names, hnames, j, other, hother, hne, hactive, hkey⟩ | ⟨names, hnames, -, hother⟩)
    · exact ⟨names, hnames, j, other, hother, hne, hactive, fun name hname => (hkey name hname).2⟩
    · exact ⟨names, hnames, hother⟩

/-! ## What the database refuses -/

theorem SameKey.symm {names : List String} {a b : EntityRow} (h : SameKey names a b) : SameKey names b a := by
  intro name hname
  obtain ⟨hnull, heq⟩ := h name hname
  exact ⟨heq ▸ hnull, heq.symm⟩

theorem get?_clearDeleted {t : Table EntityRow} (hrow : t.get? id = some row) (j : ℕ) :
    (clearDeleted t id).get? j =
      if j = id then some { row with deletedAt := none, deletedByUserId := none } else t.get? j :=
  get?_modify_row hrow _ j

/-- Clearing the mark breaks an index exactly if an active row has the key of the row. -/
theorem indexesHold_clearDeleted {t : Table EntityRow} (hrow : t.get? id = some row) (hholds : IndexesHold model t) :
    ¬IndexesHold model (clearDeleted t id) ↔ ∃ names ∈ model.uniqueColumns, ClashesIn t id row names := by
  constructor
  · intro hbroken
    by_contra hnone
    refine hbroken fun names hnames i j a b ha hb hactive hactive' hkey => ?_
    have hclash {k : ℕ} {other : EntityRow} (hother : t.get? k = some other) (hne : k ≠ id) (hmark : other.deletedAt = none)
        (hsame : SameKey names row other) : False :=
      hnone ⟨names, hnames, k, other, hother, hne, hmark, hsame⟩
    rw [get?_clearDeleted hrow] at ha hb
    by_cases hi : i = id <;> by_cases hj : j = id
    · exact hi.trans hj.symm
    · rw [if_pos hi, Option.some.injEq] at ha
      rw [if_neg hj] at hb
      subst ha
      exact (hclash hb hj hactive' hkey).elim
    · rw [if_neg hi] at ha
      rw [if_pos hj, Option.some.injEq] at hb
      subst hb
      exact (hclash ha hi hactive hkey.symm).elim
    · rw [if_neg hi] at ha
      rw [if_neg hj] at hb
      exact hholds names hnames i j a b ha hb hactive hactive' hkey
  · rintro ⟨names, hnames, j, other, hother, hne, hactive, hkey⟩ hrestored
    refine hne (hrestored names hnames j id other { row with deletedAt := none, deletedByUserId := none } ?_ ?_ hactive rfl
      hkey.symm)
    · rw [get?_clearDeleted hrow, if_neg hne, hother]
    · rw [get?_clearDeleted hrow, if_pos rfl]

end

/-- **The restore check**: it reports a duplicate exactly where the database would, unless a NULL is taken for one. -/
theorem restoreConflict_duplicate_iff (db : ArchiveDb) (model : EntityModel) (id : ℕ) (row : EntityRow)
    (hrow : (db.rows model).get? id = some row) (hholds : IndexesHold model (db.rows model)) :
    (restoreConflict db model id row = some duplicateMessage ↔ ¬IndexesHold model (clearDeleted (db.rows model) id)) ↔
      (NullTwin db model id row → ∃ names ∈ model.uniqueColumns, ClashesIn (db.rows model) id row names) := by
  rw [duplicate_iff_clash_or_null, indexesHold_clearDeleted hrow hholds]
  constructor
  · intro h htwin
    exact h.1 (.inr htwin)
  · intro h
    exact ⟨fun hduplicate => hduplicate.elim (fun hclash => hclash) h, .inl⟩

/-- Where only the tax number may be NULL, it is a business party without one that is taken for another. -/
theorem NullTwin.vat_tin {db : ArchiveDb} {model : EntityModel} {id : ℕ} {row : EntityRow} (h : NullTwin db model id row)
    (hnotNull : ∀ names ∈ model.uniqueColumns, ∀ name ∈ names, name ≠ "vat_tin" → row.column name ≠ .null) :
    model = .businessParty ∧ row.column "vat_tin" = .null := by
  obtain ⟨names, hnames, ⟨name, hname, hnull⟩, -⟩ := h
  have hvat : name = "vat_tin" := by
    by_contra hne
    exact hnotNull names hnames name hname hne hnull
  subst hvat
  refine ⟨?_, hnull⟩
  have hmodel : ∀ m : EntityModel, (∃ names ∈ m.uniqueColumns, "vat_tin" ∈ names) → m = .businessParty := by
    intro m
    cases m <;> decide
  exact hmodel model ⟨names, hnames, hname⟩

/-! ## Two parties -/

def partyRow (code : String) (vatTin : Json) (deletedAt : Option ℕ) : EntityRow :=
  ⟨[("party_code", .str code), ("legal_name", .str code), ("vat_tin", vatTin), ("status", .str "INACTIVE")], 1, deletedAt,
    none⟩

/-- An archived party and an active one. -/
def twoParties (archived active : EntityRow) : ArchiveDb :=
  .fresh (Function.update (fun _ => .empty) .businessParty ((Table.empty.insert archived).insert active))

theorem rows_twoParties (a b : EntityRow) :
    (twoParties a b).rows .businessParty = (Table.empty.insert a).insert b := by
  simp [twoParties, ArchiveDb.fresh]

/-- A table with one active row has no two with one key. -/
theorem indexesHold_twoParties (a b : EntityRow) (ha : a.deletedAt ≠ none) :
    IndexesHold .businessParty ((twoParties a b).rows .businessParty) := by
  intro names _ i j x y hx hy hactive hactive' _
  have honly {k : ℕ} {z : EntityRow} (hz : ((Table.empty.insert a).insert b).get? k = some z) (hmark : z.deletedAt = none) :
      k = (Table.empty.insert a).nextId := by
    rw [Table.get?_insert] at hz
    split at hz
    · assumption
    · rw [Table.get?_insert] at hz
      split at hz
      · cases hz
        exact absurd hmark ha
      · cases hz
  rw [rows_twoParties] at hx hy
  exact (honly hx hactive).trans (honly hy hactive').symm

/-- Both parties have the code `ACME`. -/
theorem restoreConflict_duplicate_acme :
    restoreConflict (twoParties (partyRow "ACME" .null (some 1)) (partyRow "ACME" .null none)) .businessParty 1
        (partyRow "ACME" .null (some 1)) = some duplicateMessage ↔
      ¬IndexesHold .businessParty
        (clearDeleted ((twoParties (partyRow "ACME" .null (some 1)) (partyRow "ACME" .null none)).rows .businessParty) 1) := by
  refine (restoreConflict_duplicate_iff _ _ 1 _ (by rfl) (indexesHold_twoParties _ _ (by decide))).2 fun _ => ?_
  refine ⟨["party_code"], by decide, 2, partyRow "ACME" .null none, by rfl, by decide, rfl, fun name hname => ?_⟩
  rw [List.mem_singleton.1 hname]
  decide

/-- A party without a tax number is not restored while another one has none; the database would accept it. -/
theorem null_taken_for_duplicate :
    IndexesHold .businessParty ((twoParties (partyRow "ACME" .null (some 1)) (partyRow "BOLT" .null none)).rows .businessParty) ∧
    ¬(restoreConflict (twoParties (partyRow "ACME" .null (some 1)) (partyRow "BOLT" .null none)) .businessParty 1
        (partyRow "ACME" .null (some 1)) = some duplicateMessage ↔
      ¬IndexesHold .businessParty
        (clearDeleted ((twoParties (partyRow "ACME" .null (some 1)) (partyRow "BOLT" .null none)).rows .businessParty) 1)) := by
  have hholds := indexesHold_twoParties (partyRow "ACME" .null (some 1)) (partyRow "BOLT" .null none) (by decide)
  refine ⟨hholds, fun h => ?_⟩
  have hduplicate : restoreConflict (twoParties (partyRow "ACME" .null (some 1)) (partyRow "BOLT" .null none)) .businessParty 1
      (partyRow "ACME" .null (some 1)) = some duplicateMessage := by decide +kernel
  obtain ⟨names, hnames, j, other, hother, hne, -, hkey⟩ := (indexesHold_clearDeleted (by rfl) hholds).1 (h.1 hduplicate)
  have hbolt : other = partyRow "BOLT" .null none := by
    rw [rows_twoParties, Table.get?_insert] at hother
    split at hother
    · exact (Option.some.inj hother).symm
    · rw [Table.get?_insert] at hother
      split at hother
      · next hj => exact absurd hj hne
      · cases hother
  subst hbolt
  have hnone : ∀ names ∈ EntityModel.businessParty.uniqueColumns, ∃ name ∈ names,
      (partyRow "ACME" .null (some 1)).column name = .null ∨
        (partyRow "BOLT" .null none).column name ≠ (partyRow "ACME" .null (some 1)).column name := by decide
  obtain ⟨name, hname, hdiffers⟩ := hnone names hnames
  exact hdiffers.elim (hkey name hname).1 fun hneq => hneq (hkey name hname).2

end LcsSystem
