import LcsSystem.Quotations.Writes

/-!
# What holds of the lines of every revision

A save writes all lines of one revision with its totals, or none; a copy takes both along; the other writes
see neither. So a relation between totals and lines that a saved body establishes, that copies keep and that
holds of no lines, holds of every revision after every run (`EveryRevision.write`).
-/

namespace LcsSystem
open Relational Checks

/-- A relation that the writers of lines establish. -/
structure LinesRelation (R : Amounts → List QuotationRevisionLine → Prop) : Prop where
  nil : R 0 []
  copy : ∀ amounts lines revisionId, R amounts lines →
    R amounts (lines.map fun l => { l with quotationRevisionId := revisionId })
  saved : ∀ (db : QuotationDb) revisionId payloads priced rows amounts, pricedLinesFrom db 0 payloads = .ok priced →
    pricedRowsFrom revisionId 1 priced = .ok rows → pricedAmounts priced = .ok amounts → R amounts rows

/-- It holds of every revision, and lines refer to revisions that were inserted. -/
structure EveryRevision (R : Amounts → List QuotationRevisionLine → Prop) (db : QuotationDb) : Prop where
  rows : ∀ id r, db.revisions.get? id = some r → R r.amounts ((db.linesOf id).map Prod.snd)
  keys : db.lines.KeysBelow (fun l => some l.quotationRevisionId) db.revisions.nextId

/-- The lines of a copy, which has none before. -/
theorem cloneRevision_lines {db : QuotationDb} (h : db.lines.KeysBelow (fun l => some l.quotationRevisionId) db.revisions.nextId)
    {quotationId : ℕ} {source : ℕ × QuotationRevision} {userId : Option ℕ} :
    ((cloneRevision db quotationId source userId).1.linesOf db.revisions.nextId).map Prod.snd =
      ((db.linesOf source.1).map Prod.snd).map fun l => { l with quotationRevisionId := db.revisions.nextId } := by
  refine (congrArg _ (Table.select_insertAll db.lines fun l hl => ?_)).trans ?_
  · obtain ⟨_, -, rfl⟩ := List.mem_map.1 hl
    exact beq_self_eq_true _
  · rw [h.select_eq_nil fun l hl => congrArg some (beq_iff_eq.1 hl), List.nil_append, List.map_map, List.map_map]
    exact List.zipIdx_map_fst _ _

/-- The lines of a deleted quotation are those of its revisions. -/
theorem removeQuotation_linesOf {db : QuotationDb} {quotationId id : ℕ} {r : QuotationRevision}
    (hr : db.revisions.get? id = some r) (hother : r.quotationId ≠ quotationId) :
    (removeQuotation db quotationId).linesOf id = db.linesOf id := by
  have hkept : (db.lines.erase fun _ l => (db.revisions.get? l.quotationRevisionId).any fun r =>
      r.quotationId == quotationId).select (fun l => l.quotationRevisionId == id) = db.linesOf id := by
    refine Table.select_erase_of_not fun _ l _ hl => ?_
    rw [beq_iff_eq.1 hl, hr, Option.any_some]
    exact beq_false_of_ne hother
  exact hkept

/-- The lines of a revision after all of them were written anew. -/
theorem rewritten_linesOf (lines : Table QuotationRevisionLine) {revisionId : ℕ} {rows : List QuotationRevisionLine}
    (hrows : ∀ l ∈ rows, l.quotationRevisionId = revisionId) :
    ((((lines.erase fun _ l => l.quotationRevisionId == revisionId).insertAll rows).select
      fun l => l.quotationRevisionId == revisionId).map Prod.snd) = rows := by
  have hcleared : (lines.erase fun _ l => l.quotationRevisionId == revisionId).select
      (fun l => l.quotationRevisionId == revisionId) = [] := by
    simp only [Table.select, Table.erase, List.filter_filter]
    rw [List.filter_eq_nil_iff]
    simp
  rw [Table.select_insertAll _ fun l hl => beq_iff_eq.2 (hrows l hl), hcleared, List.nil_append, List.map_map]
  exact List.zipIdx_map_fst _ _

namespace EveryRevision
variable {R : Amounts → List QuotationRevisionLine → Prop} {db db' : QuotationDb} {revisionId : ℕ}

/-- A write that reaches neither the revisions nor their lines. -/
theorem of_tables (h : EveryRevision R db) (hrevisions : db'.revisions = db.revisions) (hlines : db'.lines = db.lines) :
    EveryRevision R db' where
  rows id r hr := by
    rw [QuotationDb.linesOf, hlines]
    exact h.rows id r (hrevisions ▸ hr)
  keys := by
    rw [hlines, hrevisions]
    exact h.keys

/-- An update of a revision that keeps its amounts. -/
theorem modifyRevision (h : EveryRevision R db) {f : QuotationRevision → QuotationRevision}
    (hamounts : ∀ r, (f r).amounts = r.amounts) :
    EveryRevision R { db with revisions := db.revisions.modify revisionId f } where
  rows id r hr := by
    rw [Table.get?_modify] at hr
    split at hr
    · rw [Option.map_eq_some_iff] at hr
      obtain ⟨s, hs, rfl⟩ := hr
      rw [hamounts s]
      exact h.rows id s hs
    · exact h.rows id r hr
  keys := h.keys

/-- A revision without lines. -/
theorem insertRevision (h : EveryRevision R db) (hR : LinesRelation R) {r : QuotationRevision} (hamounts : r.amounts = 0) :
    EveryRevision R { db with revisions := db.revisions.insert r } where
  rows := by
    refine Table.forall_insert h.rows ?_
    have hnone : db.linesOf db.revisions.nextId = [] :=
      h.keys.select_eq_nil fun l hl => congrArg some (beq_iff_eq.1 hl)
    rw [QuotationDb.linesOf] at hnone ⊢
    rw [hnone, hamounts]
    exact hR.nil
  keys := h.keys.mono (Nat.le_succ _)

/-- The lines of one revision, with its totals. -/
theorem writeLines (h : EveryRevision R db) {r : QuotationRevision} (hr : db.revisions.get? revisionId = some r)
    {rows : List QuotationRevisionLine} {amounts : Amounts} (hrows : ∀ l ∈ rows, l.quotationRevisionId = revisionId)
    (hwritten : R amounts rows) :
    EveryRevision R { db with
      lines := (db.lines.erase fun _ l => l.quotationRevisionId == revisionId).insertAll rows
      revisions := db.revisions.modify revisionId fun r => { r with amounts := amounts } } where
  rows := by
    refine Table.forall_modify_of_ne hr (fun id s hne hs => ?_) ?_
    · have hothers : ((db.lines.erase fun _ l => l.quotationRevisionId == revisionId).insertAll rows).select
          (fun l => l.quotationRevisionId == id) = db.linesOf id := by
        refine (Table.select_insertAll_of_not _ fun l hl => ?_).trans (Table.select_erase_of_not fun _ l _ hl => ?_)
        · rw [hrows l hl]
          exact beq_false_of_ne hne.symm
        · rw [beq_iff_eq.1 hl]
          exact beq_false_of_ne hne
      rw [QuotationDb.linesOf, hothers]
      exact h.rows id s hs
    · rw [QuotationDb.linesOf, rewritten_linesOf db.lines hrows]
      exact hwritten
  keys := by
    refine (h.keys.erase _).insertAll fun l hl id hid => ?_
    rw [hrows l hl, Option.mem_some_iff] at hid
    exact hid ▸ Table.lt_nextId hr

/-- A copy has the lines and the totals of its source. -/
theorem cloneRevision (h : EveryRevision R db) (hR : LinesRelation R) {quotationId : ℕ} {source : ℕ × QuotationRevision}
    {userId : Option ℕ} (hsource : db.revisions.get? source.1 = some source.2) :
    EveryRevision R (cloneRevision db quotationId source userId).1 where
  rows := by
    refine Table.forall_insert (fun id r hr => ?_) ?_
    · have hsame : SameRevision id db (LcsSystem.cloneRevision db quotationId source userId).1 :=
        cloneRevision_same (Table.lt_nextId hr).ne
      have hsame := hsame.lines
      rw [hsame]
      exact h.rows id r hr
    · rw [cloneRevision_lines h.keys]
      exact hR.copy _ _ _ (h.rows source.1 source.2 hsource)
  keys := by
    refine (h.keys.mono (Nat.le_succ _)).insertAll fun l hl id hid => ?_
    obtain ⟨_, -, rfl⟩ := List.mem_map.1 hl
    rw [Option.mem_some_iff] at hid
    exact hid ▸ Nat.lt_succ_self _

/-- The lines of the quotations that stay. -/
theorem remove (h : EveryRevision R db) (quotationId : ℕ) : EveryRevision R (removeQuotation db quotationId) where
  rows id r hr := by
    rw [removeQuotation, Table.get?_erase, Option.filter_eq_some_iff] at hr
    obtain ⟨hr, hother⟩ := hr
    rw [removeQuotation_linesOf hr (by simpa using hother)]
    exact h.rows id r hr
  keys := h.keys.erase _

/-- **Every write** keeps the relation. -/
theorem write (h : EveryRevision R db) (hR : LinesRelation R) (hwrite : QuotationWrite db db') : EveryRevision R db' := by
  cases hwrite with
  | header parties directions sequences quotations => exact h.of_tables rfl rfl
  | conversions conversions => exact h.of_tables rfl rfl
  | first env quotationId quotationDate validUntil currency hcurrency => exact h.insertRevision hR rfl
  | copy quotationId source userId hsource => exact h.cloneRevision hR hsource
  | dates revisionId p hdraft hdated =>
    simp only [saveRevisionHeader, bind_eq_ok, pure_eq_ok] at hdated
    obtain ⟨_, -, rfl⟩ := hdated
    exact h.modifyRevision fun _ => rfl
  | containers revisionId p hdraft hcontainers =>
    obtain ⟨types, containers, rfl⟩ := saveContainers_spec hcontainers
    exact h.of_tables rfl rfl
  | route revisionId p hdraft hplaces =>
    obtain ⟨places, rfl⟩ := savePlaces_spec hplaces
    exact h.of_tables rfl rfl
  | lines revisionId p hdraft hlines =>
    obtain ⟨r, hr, -⟩ := hdraft
    unfold savePricingLines at hlines
    split at hlines
    · cases hlines
      exact h
    · simp only [bind_eq_ok, pure_eq_ok] at hlines
      obtain ⟨payloads, -, priced, hpriced, rows, hrows, amounts, hamounts, rfl⟩ := hlines
      have hwritten := hR.saved db revisionId payloads priced rows amounts hpriced hrows hamounts
      exact h.writeLines hr (pricedRowsFrom_parent hrows) hwritten
  | status revisionId status hleft => exact h.modifyRevision fun _ => rfl
  | order env quotation revision orderId hrevision hleft hcreate =>
    simp only [createServiceOrderFromQuotation, bind_eq_ok, check_eq_ok, pure_eq_ok, Prod.mk.injEq] at hcreate
    obtain ⟨_, -, rfl, -⟩ := hcreate
    exact h.of_tables rfl rfl
  | remove quotationId horders => exact h.remove quotationId

end EveryRevision

end LcsSystem
