import LcsSystem.MasterData.ListPages

/-!
# Requests that share a cache key

When the pages of two requests with one key are the same in every database: the same rows pass their conditions, and
their orders compare these rows alike.
-/

namespace LcsSystem

/-! ## The order of rows -/

theorem cellLt_trans {x y z : Option ColumnValue} (h : cellLt x y = true) (h' : cellLt y z = true) : cellLt x z = true := by
  rcases x with _ | s | m <;> rcases y with _ | t | n <;> rcases z with _ | u | k <;>
    simp only [cellLt, decide_eq_true_eq, reduceCtorEq] at h h' ⊢
  · exact lt_trans h h'
  · omega

theorem cellLt_trichotomy (x y : Option ColumnValue) : cellLt x y = true ∨ x = y ∨ cellLt y x = true := by
  rcases x with _ | s | m <;> rcases y with _ | t | n <;>
    simp only [cellLt, decide_eq_true_eq, Option.some.injEq, ColumnValue.text.injEq, ColumnValue.number.injEq, reduceCtorEq,
      or_true, or_false]
  · exact lt_trichotomy s t
  · omega

/-- One column of an order, before the next ones. -/
def columnLt (descending : Bool) (x y : Option ColumnValue) : Bool := if descending then cellLt y x else cellLt x y

theorem rowLe_cons {column : String} {descending : Bool} {orders : List (String × Bool)} {a b : ReferenceRow} :
    rowLe ((column, descending) :: orders) a b = true ↔ columnLt descending (a.cell column) (b.cell column) = true ∨
      a.cell column = b.cell column ∧ rowLe orders a b = true := by
  simp only [rowLe, columnLt, Bool.or_eq_true, Bool.and_eq_true, decide_eq_true_eq]

theorem columnLt_trans {descending : Bool} {x y z : Option ColumnValue} (h : columnLt descending x y = true)
    (h' : columnLt descending y z = true) : columnLt descending x z = true := by
  cases descending with
  | false => exact cellLt_trans h h'
  | true => exact cellLt_trans h' h

theorem columnLt_trichotomy (descending : Bool) (x y : Option ColumnValue) :
    columnLt descending x y = true ∨ x = y ∨ columnLt descending y x = true := by
  cases descending with
  | false => exact cellLt_trichotomy x y
  | true =>
    rcases cellLt_trichotomy x y with h | h | h
    · exact .inr (.inr h)
    · exact .inr (.inl h)
    · exact .inl h

theorem rowLe_trans (orders : List (String × Bool)) : ∀ a b c, rowLe orders a b = true → rowLe orders b c = true →
    rowLe orders a c = true := by
  induction orders with
  | nil => simp [rowLe]
  | cons o orders ih =>
    intro a b c hab hbc
    rw [rowLe_cons] at hab hbc ⊢
    rcases hab with hab | ⟨hab, hab'⟩
    · rcases hbc with hbc | ⟨hbc, -⟩
      · exact .inl (columnLt_trans hab hbc)
      · exact .inl (hbc ▸ hab)
    · rcases hbc with hbc | ⟨hbc, hbc'⟩
      · exact .inl (hab ▸ hbc)
      · exact .inr ⟨hab.trans hbc, ih a b c hab' hbc'⟩

theorem rowLe_total (orders : List (String × Bool)) : ∀ a b, (rowLe orders a b || rowLe orders b a) = true := by
  induction orders with
  | nil => simp [rowLe]
  | cons o orders ih =>
    intro a b
    have hrest := ih a b
    rw [Bool.or_eq_true] at hrest ⊢
    rw [rowLe_cons, rowLe_cons]
    rcases columnLt_trichotomy o.2 (a.cell o.1) (b.cell o.1) with h | h | h
    · exact .inl (.inl h)
    · exact hrest.imp (fun hab => .inr ⟨h, hab⟩) fun hba => .inr ⟨h.symm, hba⟩
    · exact .inr (.inl h)

theorem pairwise_sorted (orders : List (String × Bool)) (rows : List ReferenceRow) :
    (rows.mergeSort (rowLe orders)).Pairwise fun a b => rowLe orders a b = true :=
  List.pairwise_mergeSort (rowLe_trans orders) (rowLe_total orders) rows

/-! ## Same statement -/

/-- The same rows pass both requests. -/
def SameSelection (spec : ReferenceSpec) (p p' : PageParams) : Prop :=
  ∀ row : ReferenceRow, row.selected spec p = row.selected spec p'

/-- The two orders compare the rows that pass alike. -/
def SameOrder (spec : ReferenceSpec) (p p' : PageParams) : Prop :=
  ∀ a b : ReferenceRow, a.id ≠ b.id → a.selected spec p = true → b.selected spec p = true →
    rowLe (orderBy spec p) a b = rowLe (orderBy spec p') a b

theorem rowLe_self (orders : List (String × Bool)) (a : ReferenceRow) : rowLe orders a a = true := by
  simpa using rowLe_total orders a a

theorem ReferenceDb.eq_of_id (db : ReferenceDb) {a b : ReferenceRow} (ha : a ∈ db.rows) (hb : b ∈ db.rows)
    (hid : a.id = b.id) : a = b := List.inj_on_of_nodup_map db.nodup ha hb hid

variable {spec : ReferenceSpec} {p p' : PageParams}

/-- One statement, one page. -/
theorem listReference_congr (hpage : p.page = p'.page) (hsize : p.pageSize = p'.pageSize)
    (hselection : SameSelection spec p p') (horder : SameOrder spec p p') (db : ReferenceDb) :
    listReference spec p db = listReference spec p' db := by
  have hselected : db.rows.filter (ReferenceRow.selected spec p) = db.rows.filter (ReferenceRow.selected spec p') :=
    List.filter_congr fun row _ => hselection row
  have hsorted : (db.rows.filter (ReferenceRow.selected spec p)).mergeSort (rowLe (orderBy spec p)) =
      (db.rows.filter (ReferenceRow.selected spec p)).mergeSort (rowLe (orderBy spec p')) := by
    have hcompare : ∀ a ∈ db.rows.filter (ReferenceRow.selected spec p),
        ∀ b ∈ db.rows.filter (ReferenceRow.selected spec p),
        rowLe (orderBy spec p) a b = rowLe (orderBy spec p') (id a) (id b) := by
      intro a ha b hb
      rw [List.mem_filter] at ha hb
      by_cases hid : a.id = b.id
      · rw [db.eq_of_id ha.1 hb.1 hid]
        exact (rowLe_self _ b).trans (rowLe_self _ b).symm
      · exact horder a b hid ha.2 hb.2
    simpa using List.map_mergeSort hcompare
  unfold listReference referencePage PageParams.offset
  dsimp only
  rw [hsorted, hselected, hpage, hsize]

/-! ## Requests that differ -/

/-- The row under another key. -/
def ReferenceRow.withId (row : ReferenceRow) (i : ℕ) : ReferenceRow := { row with id := i }

theorem selected_withId (row : ReferenceRow) (i : ℕ) : (row.withId i).selected spec p = row.selected spec p := by
  have hsearch : (row.withId i).searched spec (p.q.getD "") = row.searched spec (p.q.getD "") := by
    unfold ReferenceRow.searched ReferenceRow.cell ReferenceRow.withId
    congr 2
    funext column
    by_cases hcolumn : column = "id" <;> simp [hcolumn]
  have hstatus : ((row.withId i).cell spec.statusField = some (.text (p.status.getD ""))) =
      (row.cell spec.statusField = some (.text (p.status.getD ""))) := by
    unfold ReferenceRow.cell ReferenceRow.withId
    by_cases hcolumn : spec.statusField = "id" <;> simp [hcolumn]
  unfold ReferenceRow.selected
  rw [hsearch]
  simp only [hstatus]
  rfl

/-- Rows are compared by their other columns and by which key is smaller. -/
theorem rowLe_withId (orders : List (String × Bool)) {a b : ReferenceRow} {i j : ℕ} (hne : a.id ≠ b.id) (hij : i ≠ j)
    (h : i < j ↔ a.id < b.id) : rowLe orders (a.withId i) (b.withId j) = rowLe orders a b := by
  induction orders with
  | nil => rfl
  | cons o orders ih =>
    rw [Bool.eq_iff_iff, rowLe_cons, rowLe_cons, ih]
    by_cases hcolumn : o.1 = "id"
    · have hswap : j < i ↔ b.id < a.id := by omega
      have hid (row : ReferenceRow) : row.cell o.1 = some (.number row.id) := by simp [ReferenceRow.cell, hcolumn]
      rw [hid, hid, hid, hid]
      cases ho : o.2 <;> simp [columnLt, cellLt, ReferenceRow.withId, h, hswap, hne, hij]
    · have hsame (row : ReferenceRow) (k : ℕ) : (row.withId k).cell o.1 = row.cell o.1 := by
        simp [ReferenceRow.cell, ReferenceRow.withId, hcolumn]
      rw [hsame, hsame]

/-- In a sorted list, those that come before all others are in front. -/
theorem sorted_front {α : Type} {le : α → α → Bool} {s as bs : List α} {k : ℕ} (hsorted : s.Pairwise fun a b => le a b)
    (hperm : s.Perm (as ++ bs)) (hnodup : (as ++ bs).Nodup) (hlast : ∀ a ∈ as, ∀ b ∈ bs, le a b = false)
    (hk : k ≤ bs.length) : ∀ x ∈ s.take k, x ∈ bs := by
  intro x hx
  obtain ⟨i, hi, rfl⟩ := List.mem_iff_getElem.1 hx
  rw [List.getElem_take]
  have hlength : i < k ∧ i < s.length := by simpa using hi
  rcases List.mem_append.1 (hperm.subset (List.getElem_mem hlength.2)) with ha | hb
  · exfalso
    have hfront : bs ⊆ s.take i := by
      intro b hb
      obtain ⟨j, hj, rfl⟩ := List.mem_iff_getElem.1 (hperm.symm.subset (List.mem_append_right as hb))
      rcases lt_trichotomy j i with hlt | rfl | hlt
      · exact List.mem_take_iff_getElem.2 ⟨j, by omega, rfl⟩
      · exact absurd rfl ((List.nodup_append.1 hnodup).2.2 _ ha _ hb)
      · have hle := List.pairwise_iff_getElem.1 hsorted i j hlength.2 hj hlt
        rw [hlast _ ha _ hb] at hle
        cases hle
    have hcount := ((List.nodup_append.1 hnodup).2.1.subperm hfront).length_le
    rw [List.length_take] at hcount
    omega
  · exact hb

theorem listReference_total (db : ReferenceDb) :
    (listReference spec p db).total = (db.rows.filter (ReferenceRow.selected spec p)).length := rfl

/-- A database with one row tells the conditions apart. -/
theorem sameSelection_of_pages (h : ∀ db, listReference spec p db = listReference spec p' db) :
    SameSelection spec p p' := by
  intro row
  have htotal := congrArg Page.total (h ⟨[row], fun _ => .null, by simp⟩)
  rw [listReference_total, listReference_total] at htotal
  cases hp : row.selected spec p <;> cases hp' : row.selected spec p' <;> simp [hp, hp'] at htotal ⊢

def ReferenceRow.copies (row : ReferenceRow) (start k : ℕ) : List ReferenceRow :=
  (List.range k).map fun i => row.withId (start + i)

theorem mem_copies {row x : ReferenceRow} {start k : ℕ} :
    x ∈ row.copies start k ↔ ∃ i < k, x = row.withId (start + i) := by
  simp [ReferenceRow.copies, eq_comm]

theorem copies_ids (row : ReferenceRow) (start k : ℕ) :
    (row.copies start k).map ReferenceRow.id = List.range' start k := by
  simp [ReferenceRow.copies, ReferenceRow.withId, Function.comp_def, List.range'_eq_map_range]

/-- Two blocks of keys, in the order of `m` and `n`. -/
theorem exists_blocks {m n : ℕ} (hne : m ≠ n) (k : ℕ) :
    ∃ i j, ∀ x < k, ∀ y < k, i + x ≠ j + y ∧ (i + x < j + y ↔ m < n) := by
  rcases lt_or_gt_of_ne hne with h | h
  · exact ⟨0, k, fun x hx y hy => by omega⟩
  · exact ⟨k, 0, fun x hx y hy => by omega⟩

/-- A database with many copies of two rows tells the orders apart. -/
theorem rowLe_of_pages (h : ∀ db, listReference spec p db = listReference spec p' db) (hpage : p.page = p'.page)
    (hsize : p.pageSize = p'.pageSize) {a b : ReferenceRow} (hid : a.id ≠ b.id) (ha : a.selected spec p = true)
    (hb : b.selected spec p = true) (hle : rowLe (orderBy spec p) a b = true) : rowLe (orderBy spec p') a b = true := by
  by_contra hnot
  rw [Bool.not_eq_true] at hnot
  obtain ⟨i, j, hblocks⟩ := exists_blocks hid (p.offset + p.pageSize)
  set k := p.offset + p.pageSize with hk
  set as := (a.copies i k).mergeSort (rowLe (orderBy spec p)) with has
  set bs := (b.copies j k).mergeSort (rowLe (orderBy spec p)) with hbs
  have hcompare (orders : List (String × Bool)) : ∀ x ∈ as, ∀ y ∈ bs, rowLe orders x y = rowLe orders a b := by
    intro x hx y hy
    obtain ⟨m, hm, rfl⟩ := mem_copies.1 (List.mem_mergeSort.1 hx)
    obtain ⟨n, hn, rfl⟩ := mem_copies.1 (List.mem_mergeSort.1 hy)
    exact rowLe_withId orders hid (hblocks m hm n hn).1 (hblocks m hm n hn).2
  have hlength : as.length = k ∧ bs.length = k := by
    simp [has, hbs, ReferenceRow.copies]
  have hids : ((as ++ bs).map ReferenceRow.id).Nodup := by
    have hperm : ((as ++ bs).map ReferenceRow.id).Perm
        ((a.copies i k ++ b.copies j k).map ReferenceRow.id) :=
      ((List.mergeSort_perm _ _).append (List.mergeSort_perm _ _)).map _
    rw [hperm.nodup_iff, List.map_append, copies_ids, copies_ids, List.nodup_append]
    refine ⟨List.nodup_range', List.nodup_range', ?_⟩
    intro x hx y hy
    simp only [List.mem_range', one_mul] at hx hy
    obtain ⟨m, hm, rfl⟩ := hx
    obtain ⟨n, hn, rfl⟩ := hy
    exact (hblocks m hm n hn).1
  have hselected : ∀ q, (∀ row : ReferenceRow, row.selected spec q = row.selected spec p) →
      (as ++ bs).filter (ReferenceRow.selected spec q) = as ++ bs := by
    intro q hq
    rw [List.filter_eq_self]
    intro x hx
    rw [hq]
    rcases List.mem_append.1 hx with hx | hx
    · obtain ⟨m, -, rfl⟩ := mem_copies.1 (List.mem_mergeSort.1 hx)
      rw [selected_withId]
      exact ha
    · obtain ⟨m, -, rfl⟩ := mem_copies.1 (List.mem_mergeSort.1 hx)
      rw [selected_withId]
      exact hb
  have hfirst : (as ++ bs).mergeSort (rowLe (orderBy spec p)) = as ++ bs := by
    refine List.mergeSort_of_pairwise (List.pairwise_append.2 ⟨pairwise_sorted _ _, pairwise_sorted _ _, ?_⟩)
    intro x hx y hy
    rw [hcompare _ x hx y hy]
    exact hle
  have hsecond : ∀ x ∈ ((as ++ bs).mergeSort (rowLe (orderBy spec p'))).take k, x ∈ bs := by
    refine sorted_front (pairwise_sorted _ _) (List.mergeSort_perm _ _) (List.Nodup.of_map _ hids) ?_ hlength.2.ge
    intro x hx y hy
    rw [hcompare _ x hx y hy]
    exact hnot
  have hpos : p.offset < as.length := by
    have := p.pageSize_pos
    omega
  have hitem : (as[p.offset].id, Json.null) ∈ (listReference spec p ⟨as ++ bs, fun _ => .null, hids⟩).items := by
    simp only [listReference, referencePage, hselected p (fun _ => rfl), hfirst]
    refine List.mem_map.2 ⟨as[p.offset], ?_, rfl⟩
    rw [List.mem_take_iff_getElem]
    refine ⟨0, ?_, ?_⟩
    · have := p.pageSize_pos
      simp [hlength]
      omega
    · simp [List.getElem_append_left hpos]
  rw [h] at hitem
  simp only [listReference, referencePage, hselected p' fun row => (sameSelection_of_pages h row).symm] at hitem
  obtain ⟨y, hy, hyid⟩ := List.mem_map.1 hitem
  have hyk : y ∈ ((as ++ bs).mergeSort (rowLe (orderBy spec p'))).take k := by
    have hoffset : p'.offset = p.offset := by simp [PageParams.offset, hpage, hsize]
    rw [hoffset, ← hsize, List.take_drop] at hy
    exact List.mem_of_mem_drop hy
  have hmem := hsecond y hyk
  have hsame : y = as[p.offset] :=
    List.inj_on_of_nodup_map hids (List.mem_append_right _ hmem) (List.mem_append_left _ (List.getElem_mem hpos))
      (Prod.mk.inj hyid).1
  exact (List.nodup_append.1 (List.Nodup.of_map _ hids)).2.2 _ (List.getElem_mem hpos) _ (hsame ▸ hmem) rfl

/-! ## Keys -/

theorem joinedParts_cons_self {a c d : String} {as bs : List String}
    (h : joinedParts (a :: c :: as) = joinedParts (a :: d :: bs)) : joinedParts (c :: as) = joinedParts (d :: bs) := by
  have hlist := congrArg String.toList h
  simp only [joinedParts, String.toList_append, List.append_assoc, List.append_cancel_left_eq] at hlist
  exact String.toList_inj.1 hlist

/-- A key has the number and the size of the page. -/
theorem page_of_key {collection : String}
    (h : joinedParts (listCacheParts collection p) = joinedParts (listCacheParts collection p')) :
    p.page = p'.page ∧ p.pageSize = p'.pageSize := by
  have hrest := joinedParts_cons_self (joinedParts_cons_self h)
  obtain ⟨hpage, hrest⟩ := joinedParts_cons (separator_notMem_toString _) (separator_notMem_toString _) hrest
  obtain ⟨hsize, -⟩ := joinedParts_cons (separator_notMem_toString _) (separator_notMem_toString _) hrest
  exact ⟨toString_nat_injective hpage, toString_nat_injective hsize⟩

def tradeDirectionSpec : ReferenceSpec := ⟨["id", "code", "name", "status"], ["code", "name"], "status", []⟩

theorem statusRequest_page_pos : 1 ≤ 1 := le_rfl
theorem statusRequest_pageSize_pos : 1 ≤ 50 := by decide

def statusRequest (status : String) : PageParams :=
  ⟨1, 50, none, some status, none, .desc, none, none, statusRequest_page_pos, statusRequest_pageSize_pos⟩

/-- A request whose texts are sent as the key writes them. -/
structure Tidy (p : PageParams) : Prop where
  search : strip (p.q.getD "") = p.q.getD ""
  status : upper (strip (p.status.getD "")) = p.status.getD ""
  plain : '|' ∉ (p.q.getD "").toList ∧ '|' ∉ (p.status.getD "").toList ∧ '|' ∉ (p.sortBy.getD "").toList

theorem SortOrder.text_injective {a b : SortOrder} (h : a.text = b.text) : a = b := by
  cases a <;> cases b <;> simp_all [SortOrder.text]

theorem SortOrder.separator_notMem (a : SortOrder) : '|' ∉ a.text.toList := by
  cases a <;> simp [SortOrder.text]

/-- Tidy requests under one key are one statement. -/
theorem same_statement_of_tidy {collection : String} (hp : Tidy p) (hp' : Tidy p')
    (h : joinedParts (listCacheParts collection p) = joinedParts (listCacheParts collection p')) :
    SameSelection spec p p' ∧ SameOrder spec p p' := by
  have hrest := joinedParts_cons_self (joinedParts_cons_self h)
  obtain ⟨-, hrest⟩ := joinedParts_cons (separator_notMem_toString _) (separator_notMem_toString _) hrest
  obtain ⟨-, hrest⟩ := joinedParts_cons (separator_notMem_toString _) (separator_notMem_toString _) hrest
  rw [hp.search, hp'.search, hp.status, hp'.status] at hrest
  obtain ⟨hq, hrest⟩ := joinedParts_cons hp.plain.1 hp'.plain.1 hrest
  obtain ⟨hstatus, hrest⟩ := joinedParts_cons hp.plain.2.1 hp'.plain.2.1 hrest
  obtain ⟨hsort, hrest⟩ := joinedParts_cons hp.plain.2.2 hp'.plain.2.2 hrest
  obtain ⟨hdirection, -⟩ := joinedParts_cons (SortOrder.separator_notMem _) (SortOrder.separator_notMem _) hrest
  have horder : orderBy spec p = orderBy spec p' := by
    simp only [orderBy, resolveSortColumn, hsort, SortOrder.text_injective hdirection]
  refine ⟨fun row => ?_, fun a b _ _ _ => by rw [horder]⟩
  unfold ReferenceRow.selected
  rw [hq, hstatus]

/-! ## Pages that are served for another request -/

/-- One trade direction, which is active. -/
def oneDirection : ReferenceDb where
  rows := [⟨1, false, fun column => if column = "status" then some (.text "ACTIVE") else some (.text "IMPORT")⟩]
  render _ := .null
  nodup := by simp

end LcsSystem
