import LcsSystem.Lib.Selection

/-!
# Selected rows in an order

`SELECT … WHERE … ORDER BY` with the key as the last criterion: `insertionSort_select` says which list it reads.
`filter_insertionSort`: rows may be selected before or after they are ordered. `insertionSort_append`: a row that is after all
others is read last.
-/

namespace Relational
universe u

section
variable {β γ δ : Type*} {s : β → β → Prop} [DecidableRel s] [Std.Total s] [IsTrans β s]

omit [Std.Total s] [IsTrans β s] in
theorem orderedInsert_of_forall {b : β} {l : List β} (h : ∀ c ∈ l, s b c) : l.orderedInsert s b = b :: l := by
  cases l with
  | nil => rfl
  | cons c l => exact List.orderedInsert_cons_of_le s l (h c List.mem_cons_self)

omit [Std.Total s] [IsTrans β s] in
/-- What is after every element stays last. -/
theorem insertionSort_append {b : β} {l : List β} (h : ∀ a ∈ l, s a b) :
    (l ++ [b]).insertionSort s = l.insertionSort s ++ [b] := by
  have hinsert {a : β} (hab : s a b) (m : List β) : (m ++ [b]).orderedInsert s a = m.orderedInsert s a ++ [b] := by
    induction m with
    | nil => exact List.orderedInsert_cons_of_le s [] hab
    | cons c m ih =>
      by_cases hac : s a c
      · rw [List.cons_append, List.orderedInsert_cons_of_le s _ hac, List.orderedInsert_cons_of_le s _ hac]
        rfl
      · rw [List.cons_append, List.orderedInsert_of_not_le s _ hac, List.orderedInsert_of_not_le s _ hac, ih]
        rfl
  induction l with
  | nil => rfl
  | cons a l ih =>
    rw [List.forall_mem_cons] at h
    rw [List.cons_append, List.insertionSort_cons, ih h.2, hinsert h.1, List.insertionSort_cons]

omit [Std.Total s] in
theorem filter_orderedInsert (p : β → Bool) (b : β) {l : List β} (h : l.Pairwise s) :
    (l.orderedInsert s b).filter p = if p b then (l.filter p).orderedInsert s b else l.filter p := by
  induction l with
  | nil => cases hp : p b <;> simp [hp]
  | cons a l ih =>
    rw [List.pairwise_cons] at h
    by_cases hba : s b a
    · rw [List.orderedInsert_cons_of_le s l hba, List.filter_cons]
      split
      · -- the rest is after the first element, and that is after the new one
        refine (orderedInsert_of_forall fun c hc => ?_).symm
        rcases List.mem_cons.1 (List.mem_filter.1 hc).1 with rfl | hc
        · exact hba
        · exact trans_of s hba (h.1 c hc)
      · rfl
    · rw [List.orderedInsert_of_not_le s l hba, List.filter_cons, ih h.2, List.filter_cons]
      by_cases ha : p a = true
      · rw [if_pos ha, if_pos ha]
        split
        · rw [List.orderedInsert_of_not_le s _ hba]
        · rfl
      · rw [if_neg ha, if_neg ha]

/-- A stable sort. -/
theorem filter_insertionSort (p : β → Bool) (l : List β) : (l.insertionSort s).filter p = (l.filter p).insertionSort s := by
  induction l with
  | nil => rfl
  | cons b l ih =>
    rw [List.insertionSort_cons, filter_orderedInsert p b (List.pairwise_insertionSort s l), ih, List.filter_cons]
    split <;> rfl

/-- Two pictures of a list, one of them ordered anew: they are the same where the other has that order, and where they
agree row by row. -/
theorem map_insertionSort_eq_iff {t : δ → δ → Prop} {l : List γ} {entry : γ → β} {shown : β → δ} {live : γ → δ}
    (hshown : ∀ a b, s a b ↔ t (shown a) (shown b)) (hlive : ∀ x y, s (entry x) (entry y) ↔ t (live x) (live y)) :
    ((l.map entry).insertionSort s).map shown = l.map live ↔
      (l.map live).Pairwise t ∧ ∀ x ∈ l, shown (entry x) = live x := by
  have hsorted (h : (l.map live).Pairwise t) : (l.map entry).insertionSort s = l.map entry := by
    refine List.Pairwise.insertionSort_eq ?_
    rw [List.pairwise_map] at h ⊢
    exact h.imp fun hxy => (hlive _ _).2 hxy
  constructor
  · intro h
    have hpairwise : (l.map live).Pairwise t := by
      rw [← h, List.pairwise_map]
      exact (List.pairwise_insertionSort s _).imp fun hab => (hshown _ _).1 hab
    refine ⟨hpairwise, ?_⟩
    rwa [hsorted hpairwise, List.map_map, List.map_inj_left] at h
  · rintro ⟨hpairwise, hrows⟩
    rw [hsorted hpairwise, List.map_map]
    exact List.map_congr_left hrows

end
variable {α β : Type u} {r : ℕ × α → ℕ × α → Prop} [DecidableRel r] [Std.Total r] [IsTrans (ℕ × α) r]

namespace Table

/-- `SELECT … JOIN … WHERE … ORDER BY`: a further condition on the rows selects from what is read. -/
theorem filter_filterMap_select {t : Table α} {p q : α → Bool} {f : ℕ × α → Option β} {g : β → Bool}
    (hg : ∀ row b, f row = some b → g b = q row.2) :
    (((t.select p).insertionSort r).filterMap f).filter g =
      ((t.select fun a => q a && p a).insertionSort r).filterMap f := by
  have hselect : t.select (fun a => q a && p a) = (t.select p).filter fun row => q row.2 := by
    rw [select, select, List.filter_filter]
  rw [hselect, ← filter_insertionSort, List.filter_filterMap, List.filterMap_filter]
  refine List.filterMap_congr fun row _ => ?_
  cases hf : f row with
  | none => simp
  | some b => cases hq : q row.2 <;> simp [hg row b hf, hq]

/-- A sorted list of the selected rows is the one that is read, where rows that are each before the other share a key. -/
theorem insertionSort_select {t : Table α} {p : α → Bool} {rows : List (ℕ × α)}
    (hkey : ∀ a b, r a b → r b a → a.1 = b.1) (hkeys : (rows.map Prod.fst).Nodup) (hsorted : rows.Pairwise r)
    (hmem : ∀ id a, (id, a) ∈ rows ↔ t.get? id = some a ∧ p a = true) : (t.select p).insertionSort r = rows := by
  have hselect : ∀ e, e ∈ t.select p ↔ e ∈ rows := by
    rintro ⟨id, a⟩
    rw [hmem, mem_select]
  have hnodup : (t.select p).Nodup := (List.Nodup.of_map _ t.nodup).filter _
  have hperm := (List.perm_insertionSort r _).trans
    ((List.perm_ext_iff_of_nodup hnodup (.of_map _ hkeys)).2 hselect)
  refine hperm.eq_of_pairwise (fun a b ha hb hab hba => ?_) (List.pairwise_insertionSort r _) hsorted
  -- Rows under one key are one row.
  have hid : a.1 = b.1 := hkey a b hab hba
  rw [List.mem_insertionSort, hselect] at ha
  have hrow := ((hmem a.1 a.2).1 ha).1
  rw [hid, ((hmem b.1 b.2).1 hb).1, Option.some.injEq] at hrow
  exact Prod.ext hid hrow.symm

end Table
end Relational
