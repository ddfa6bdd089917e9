import LcsSystem.Lib.Listing
import LcsSystem.MasterData.RouteReadings

/-!
# What a save of a route writes

`save_route_stops` (`src/backend/app/modules/master_data/route_stops.py:147-216`) parks the stored rows of the parent on
negative numbers, flushes, and then updates, inserts and deletes in a second flush. The route is afterwards the list of
the submitted stops; `OnTheWay` is any state between two flushes, whatever the order of their statements.

| here           | there                                                        |
|----------------|--------------------------------------------------------------|
| `routeFlushes` | the tables after each `session.flush()`                      |
| `placedRow`    | `row` at the end of a turn of the loop, under the id it gets |
-/

namespace LcsSystem
open Relational Checks

/-- The rows of the parent when the first flush parks them. -/
def parkedPlaces (places : Table RoutePlace) (parentId : ℕ) : Table RoutePlace :=
  (places.select fun p => p.parentId == parentId).foldl parkRow places

/-- What is flushed: nothing when the rows are refused. -/
def routeFlushes (roles : Table PlaceRole) (hasActual : Bool) (places : Table RoutePlace) (parentId : ℕ)
    (rows : Field (List RouteStopPayload)) : List (Table RoutePlace) :=
  match saveRouteStops roles hasActual places parentId rows with
  | .error _ => []
  | .ok places' =>
    if (places.select fun p => p.parentId == parentId) = [] then [places'] else [parkedPlaces places parentId, places']

/-- The row that the stop at this index is written to, under its id. -/
def placedRow (hasActual : Bool) (places : Table RoutePlace) (parentId : ℕ) (stop : RouteStop × ℕ) (id : ℕ) :
    ℕ × RoutePlace :=
  (id, stop.1.applyTo hasActual stop.2 ((places.get? id).getD (.new parentId)))

/-- The stored rows with their roles, as the validation sees them. -/
def knownRoles (places : Table RoutePlace) (parentId : ℕ) : List (ℕ × Option ℕ) :=
  (places.select fun p => p.parentId == parentId).map fun r => (r.1, r.2.placeRoleId)

/-- No two rows of the parent have one number. -/
def SequenceUnique (places : Table RoutePlace) (parentId : ℕ) : Prop :=
  ∀ i j p q, places.get? i = some p → places.get? j = some q → p.parentId = parentId → q.parentId = parentId →
    p.sequenceNo = q.sequenceNo → i = j

/-- Each row of the parent is as it was before the flush, or as it is after it. -/
def OnTheWay (before after : Table RoutePlace) (parentId : ℕ) (t : Table RoutePlace) : Prop :=
  ∀ i row, t.get? i = some row → row.parentId = parentId → before.get? i = some row ∨ after.get? i = some row

section
variable {hasActual : Bool} {places t : Table RoutePlace} {parentId : ℕ} {w : RouteWrite} {stops : List RouteStop}
  {ids : List ℕ}

/-! ## Parked rows -/

theorem get?_parkRows (rows : List (ℕ × RoutePlace)) (t : Table RoutePlace) (i : ℕ) :
    (rows.foldl parkRow t).get? i =
      if i ∈ rows.map Prod.fst then (t.get? i).map fun p => { p with sequenceNo := -(i : ℤ) } else t.get? i := by
  induction rows generalizing t with
  | nil => rfl
  | cons r rows ih =>
    rw [List.foldl_cons, ih, parkRow, Table.get?_modify, List.map_cons]
    by_cases hi : i = r.1
    · subst hi
      by_cases hmem : r.1 ∈ rows.map Prod.fst
      · simp [hmem, Function.comp_def]
      · simp [hmem]
    · simp only [hi, if_false, List.mem_cons, false_or]

theorem get?_parkedPlaces (places : Table RoutePlace) (parentId i : ℕ) :
    (parkedPlaces places parentId).get? i = (places.get? i).map fun p =>
      if p.parentId = parentId then { p with sequenceNo := -(i : ℤ) } else p := by
  rw [parkedPlaces, get?_parkRows]
  cases hrow : places.get? i with
  | none => simp
  | some row =>
    have hmem : i ∈ (places.select fun p => p.parentId == parentId).map Prod.fst ↔ row.parentId = parentId := by
      constructor
      · intro h
        obtain ⟨r, hr, rfl⟩ := List.mem_map.1 h
        obtain ⟨hget, hparent⟩ := Table.mem_select.1 hr
        rw [hrow, Option.some.injEq] at hget
        rw [hget]
        exact beq_iff_eq.1 hparent
      · exact fun h => List.mem_map.2 ⟨(i, row), Table.mem_select.2 ⟨hrow, beq_iff_eq.2 h⟩, rfl⟩
    by_cases hparent : row.parentId = parentId
    · rw [if_pos (hmem.2 hparent), Option.map_some, Option.map_some, if_pos hparent]
    · rw [if_neg fun h => hparent (hmem.1 h), Option.map_some, if_neg hparent]

/-- A parked row of the parent has the negative of its id. -/
theorem parked_sequenceNo {i : ℕ} {row : RoutePlace} (h : (parkedPlaces places parentId).get? i = some row)
    (hparent : row.parentId = parentId) : row.sequenceNo = -(i : ℤ) := by
  rw [get?_parkedPlaces, Option.map_eq_some_iff] at h
  obtain ⟨old, -, rfl⟩ := h
  split at hparent
  · next hold => rw [if_pos hold]
  · next hold => exact absurd hparent hold

theorem nextId_parkedPlaces : (parkedPlaces places parentId).nextId = places.nextId := nextId_foldl_parkRow _ _

/-- What a stop is written over does not depend on where the row was parked. -/
theorem applyTo_parked {stop : RouteStop} {index i : ℕ} {old : RoutePlace} (hold : places.get? i = some old) {row : RoutePlace}
    (h : (parkedPlaces places parentId).get? i = some row) :
    stop.applyTo hasActual index row = stop.applyTo hasActual index old := by
  rw [get?_parkedPlaces, hold, Option.map_some, Option.some.injEq] at h
  subst h
  split <;> rfl

/-! ## The loop -/

/-- What the loop has written for the stops so far, under these ids. -/
structure RouteProgress (hasActual : Bool) (places : Table RoutePlace) (parentId : ℕ) (stops : List RouteStop)
    (ids : List ℕ) (w : RouteWrite) : Prop where
  length : ids.length = stops.length
  nodup : ids.Nodup
  grown : places.nextId ≤ w.places.nextId
  rows : ∀ k (s : RouteStop) i, stops[k]? = some s → ids[k]? = some i →
    w.places.get? i = some (s.applyTo hasActual k ((places.get? i).getD (.new parentId)))
  rest : ∀ i, i ∉ ids → w.places.get? i = (parkedPlaces places parentId).get? i
  used : ∀ i, i ∈ w.used ↔ ∃ s ∈ stops, s.rowId = some i
  kept : ∀ i, i ∈ w.kept ↔ i ∈ ids ∧ places.get? i ≠ none
  named : ∀ k (s : RouteStop) i, stops[k]? = some s → s.rowId = some i → (∀ s' ∈ stops.take k, s'.rowId ≠ some i) → ids[k]? = some i
  fresh : ∀ k i, ids[k]? = some i → places.get? i ≠ none →
    ∃ s, stops[k]? = some s ∧ s.rowId = some i ∧ ∀ s' ∈ stops.take k, s'.rowId ≠ some i

namespace RouteProgress

theorem start (hasActual : Bool) (places : Table RoutePlace) (parentId : ℕ) :
    RouteProgress hasActual places parentId [] [] ⟨parkedPlaces places parentId, [], []⟩ where
  length := rfl
  nodup := .nil
  grown := nextId_parkedPlaces.ge
  rows := by simp
  rest _ _ := rfl
  used := by simp
  kept := by simp
  named := by simp
  fresh := by simp

theorem exists_row (h : RouteProgress hasActual places parentId stops ids w) {i : ℕ} (hi : i ∈ ids) :
    ∃ row, w.places.get? i = some row := by
  obtain ⟨k, hk⟩ := List.mem_iff_getElem?.1 hi
  obtain ⟨hlt, -⟩ := List.getElem?_eq_some_iff.1 hk
  obtain ⟨s, hs⟩ : ∃ s, stops[k]? = some s := ⟨_, List.getElem?_eq_getElem (h.length ▸ hlt)⟩
  exact ⟨_, h.rows k s i hs hk⟩

/-- A row of the parent that was there before was named by its stop. -/
theorem mem_used (h : RouteProgress hasActual places parentId stops ids w) {i : ℕ} (hi : i ∈ ids)
    (hstored : places.get? i ≠ none) : i ∈ w.used := by
  obtain ⟨k, hk⟩ := List.mem_iff_getElem?.1 hi
  obtain ⟨s, hs, hrow, -⟩ := h.fresh k i hk hstored
  exact (h.used i).2 ⟨s, List.mem_of_getElem? hs, hrow⟩

end RouteProgress

/-- Reading a list with one more entry. -/
theorem getElem?_concat_cases {α : Type} {l : List α} {a b : α} {k : ℕ} (h : (l ++ [a])[k]? = some b) :
    k < l.length ∧ l[k]? = some b ∨ k = l.length ∧ b = a := by
  rcases lt_trichotomy k l.length with hlt | rfl | hgt
  · rw [List.getElem?_append_left hlt] at h
    exact .inl ⟨hlt, h⟩
  · rw [List.getElem?_concat_length, Option.some.injEq] at h
    exact .inr ⟨rfl, h.symm⟩
  · rw [List.getElem?_eq_none (by simp; omega)] at h
    cases h

theorem take_concat_of_lt {α : Type} {l : List α} {a : α} {k : ℕ} (hk : k < l.length) :
    (l ++ [a]).take k = l.take k := List.take_append_of_le_length hk.le

theorem exists_mem_concat {α : Type} {l : List α} {a : α} {P : α → Prop} :
    (∃ x ∈ l ++ [a], P x) ↔ (∃ x ∈ l, P x) ∨ P a := by
  simp [or_and_right, exists_or]

namespace RouteProgress

/-- The first stop that names a stored row writes it in place. -/
theorem step_stored (h : RouteProgress hasActual places parentId stops ids w) {stop : RouteStop} {id : ℕ} {old : RoutePlace}
    (hrow : stop.rowId = some id) (hunused : id ∉ w.used) (hold : places.get? id = some old) :
    RouteProgress hasActual places parentId (stops ++ [stop]) (ids ++ [id])
      { places := w.places.modify id (stop.applyTo hasActual stops.length), used := id :: w.used, kept := id :: w.kept } := by
  have hstored : places.get? id ≠ none := by simp [hold]
  have hnew : id ∉ ids := fun hmem => hunused (h.mem_used hmem hstored)
  refine ⟨by simp [h.length], ?_, h.grown, ?_, ?_, ?_, ?_, ?_, ?_⟩
  · exact List.nodup_append.2 ⟨h.nodup, by simp, by simpa using fun i hi (heq : i = id) => hnew (heq ▸ hi)⟩
  · intro k s i hs hi
    rcases getElem?_concat_cases hs with ⟨hlt, hs⟩ | ⟨rfl, rfl⟩
    · rw [List.getElem?_append_left (h.length ▸ hlt)] at hi
      have hne : i ≠ id := fun heq => hnew (heq ▸ List.mem_of_getElem? hi)
      rw [Table.get?_modify_of_ne _ hne]
      exact h.rows k s i hs hi
    · rw [← h.length, List.getElem?_concat_length, Option.some.injEq] at hi
      subst hi
      obtain ⟨row, hparked⟩ : ∃ row, (parkedPlaces places parentId).get? id = some row := by
        rw [get?_parkedPlaces, hold]
        exact ⟨_, rfl⟩
      rw [Table.get?_modify_self, h.rest id hnew, hparked, Option.map_some, hold, Option.getD_some,
        applyTo_parked hold hparked]
  · intro i hi
    simp only [List.mem_append, List.mem_singleton, not_or] at hi
    rw [Table.get?_modify_of_ne _ hi.2]
    exact h.rest i hi.1
  · intro i
    rw [List.mem_cons, h.used, exists_mem_concat, hrow, Option.some.injEq, or_comm, eq_comm]
  · intro i
    rw [List.mem_cons, h.kept, List.mem_append, List.mem_singleton]
    constructor
    · rintro (rfl | ⟨hi, hs⟩)
      · exact ⟨.inr rfl, hstored⟩
      · exact ⟨.inl hi, hs⟩
    · rintro ⟨hi | rfl, hs⟩
      · exact .inr ⟨hi, hs⟩
      · exact .inl rfl
  · intro k s i hs hi hfirst
    rcases getElem?_concat_cases hs with ⟨hlt, hs⟩ | ⟨rfl, rfl⟩
    · rw [take_concat_of_lt hlt] at hfirst
      rw [List.getElem?_append_left (h.length ▸ hlt)]
      exact h.named k s i hs hi hfirst
    · rw [hrow, Option.some.injEq] at hi
      rw [← h.length, List.getElem?_concat_length, hi]
  · intro k i hi hs
    rcases getElem?_concat_cases hi with ⟨hlt, hi⟩ | ⟨rfl, rfl⟩
    · obtain ⟨s, hget, hnamed, hfirst⟩ := h.fresh k i hi hs
      have hlt' := h.length ▸ hlt
      exact ⟨s, by rw [List.getElem?_append_left hlt', hget], hnamed, by rwa [take_concat_of_lt hlt']⟩
    · refine ⟨stop, by rw [h.length, List.getElem?_concat_length], hrow, ?_⟩
      intro s' hs' hnamed
      rw [h.length, List.take_append_of_le_length le_rfl, List.take_length] at hs'
      exact hunused ((h.used i).2 ⟨s', hs', hnamed⟩)

/-- Any other stop gets a row of its own. -/
theorem step_new (h : RouteProgress hasActual places parentId stops ids w) {stop : RouteStop}
    (hused : ∀ id, stop.rowId = some id → id ∈ w.used) :
    RouteProgress hasActual places parentId (stops ++ [stop]) (ids ++ [w.places.nextId])
      { places := w.places.insert (stop.applyTo hasActual stops.length (.new parentId))
        used := stop.rowId.toList ++ w.used
        kept := w.kept } := by
  have hnone : places.get? w.places.nextId = none := by
    by_contra hsome
    obtain ⟨row, hrow⟩ := Option.ne_none_iff_exists'.1 hsome
    exact absurd (Table.lt_nextId hrow) h.grown.not_gt
  have hnew : w.places.nextId ∉ ids := by
    intro hmem
    obtain ⟨row, hrow⟩ := h.exists_row hmem
    exact lt_irrefl _ (Table.lt_nextId hrow)
  refine ⟨by simp [h.length], ?_, h.grown.trans (Nat.le_succ _), ?_, ?_, ?_, ?_, ?_, ?_⟩
  · exact List.nodup_append.2 ⟨h.nodup, by simp, by simpa using fun i hi (heq : i = w.places.nextId) => hnew (heq ▸ hi)⟩
  · intro k s i hs hi
    rcases getElem?_concat_cases hs with ⟨hlt, hs⟩ | ⟨rfl, rfl⟩
    · rw [List.getElem?_append_left (h.length ▸ hlt)] at hi
      exact Table.get?_insert_of_some (h.rows k s i hs hi)
    · rw [← h.length, List.getElem?_concat_length, Option.some.injEq] at hi
      subst hi
      rw [Table.get?_insert_self, hnone, Option.getD_none]
  · intro i hi
    simp only [List.mem_append, List.mem_singleton, not_or] at hi
    rw [Table.get?_insert, if_neg hi.2]
    exact h.rest i hi.1
  · intro i
    rw [List.mem_append, Option.mem_toList, h.used, exists_mem_concat, or_comm]
  · intro i
    rw [h.kept, List.mem_append, List.mem_singleton]
    constructor
    · rintro ⟨hi, hs⟩
      exact ⟨.inl hi, hs⟩
    · rintro ⟨hi | rfl, hs⟩
      · exact ⟨hi, hs⟩
      · exact absurd hnone hs
  · intro k s i hs hi hfirst
    rcases getElem?_concat_cases hs with ⟨hlt, hs⟩ | ⟨rfl, rfl⟩
    · rw [take_concat_of_lt hlt] at hfirst
      rw [List.getElem?_append_left (h.length ▸ hlt)]
      exact h.named k s i hs hi hfirst
    · rw [List.take_append_of_le_length le_rfl, List.take_length] at hfirst
      obtain ⟨s', hs', hnamed⟩ := (h.used i).1 (hused i hi)
      exact absurd hnamed (hfirst s' hs')
  · intro k i hi hs
    rcases getElem?_concat_cases hi with ⟨hlt, hi⟩ | ⟨rfl, rfl⟩
    · obtain ⟨s, hget, hnamed, hfirst⟩ := h.fresh k i hi hs
      have hlt' := h.length ▸ hlt
      exact ⟨s, by rw [List.getElem?_append_left hlt', hget], hnamed, by rwa [take_concat_of_lt hlt']⟩
    · exact absurd hnone hs

/-- One turn of the loop. -/
theorem step (h : RouteProgress hasActual places parentId stops ids w) {stop : RouteStop}
    (hknown : ∀ id ∈ stop.rowId, StoredUnder places parentId id) :
    ∃ id, RouteProgress hasActual places parentId (stops ++ [stop]) (ids ++ [id])
      (writeStop hasActual parentId w (stop, stops.length)) := by
  unfold writeStop
  cases hfirst : stop.rowId.filter fun id => id ∉ w.used with
  | some id =>
    obtain ⟨hrow, hunused⟩ := Option.filter_eq_some_iff.1 hfirst
    obtain ⟨old, hold, -⟩ := hknown id hrow
    exact ⟨id, h.step_stored hrow (of_decide_eq_true hunused) hold⟩
  | none =>
    refine ⟨w.places.nextId, h.step_new fun id hid => ?_⟩
    rw [Option.filter_eq_none_iff] at hfirst
    simpa using hfirst id hid

/-- The run lemma. -/
theorem run (more : List RouteStop) : ∀ {stops : List RouteStop} {ids : List ℕ} {w : RouteWrite},
    RouteProgress hasActual places parentId stops ids w →
    (∀ stop ∈ more, ∀ id ∈ stop.rowId, StoredUnder places parentId id) →
    ∃ ids', RouteProgress hasActual places parentId (stops ++ more) ids'
      ((more.zipIdx stops.length).foldl (writeStop hasActual parentId) w) := by
  induction more with
  | nil =>
    intro stops ids w h _
    exact ⟨ids, by simpa using h⟩
  | cons stop more ih =>
    intro stops ids w h hknown
    rw [List.forall_mem_cons] at hknown
    obtain ⟨id, hstep⟩ := h.step hknown.1
    obtain ⟨ids', hrun⟩ := ih hstep hknown.2
    refine ⟨ids', ?_⟩
    rw [List.length_append, List.length_singleton, List.append_assoc, List.singleton_append] at hrun
    rw [List.zipIdx_cons, List.foldl_cons]
    exact hrun

end RouteProgress

/-! ## The route of the parent -/

/-- The rows in the order of the stops. -/
def placedRows (hasActual : Bool) (places : Table RoutePlace) (parentId : ℕ) (stops : List RouteStop) (ids : List ℕ) :
    List (ℕ × RoutePlace) :=
  List.zipWith (placedRow hasActual places parentId) stops.zipIdx ids

theorem getElem?_placedRows {k : ℕ} {e : ℕ × RoutePlace} :
    (placedRows hasActual places parentId stops ids)[k]? = some e ↔
      ∃ s i, stops[k]? = some s ∧ ids[k]? = some i ∧ e = placedRow hasActual places parentId (s, k) i := by
  simp only [placedRows, List.getElem?_zipWith_eq_some, List.getElem?_zipIdx, Option.map_eq_some_iff, Nat.zero_add]
  constructor
  · rintro ⟨_, i, ⟨s, hs, rfl⟩, hi, rfl⟩
    exact ⟨s, i, hs, hi, rfl⟩
  · rintro ⟨s, i, hs, hi, rfl⟩
    exact ⟨(s, k), i, ⟨s, hs, rfl⟩, hi, rfl⟩

/-- Each entry, where there are as many ids as stops. -/
theorem getElem?_placedRows_of_lt {k : ℕ} (h : ids.length = stops.length) (hk : k < stops.length) :
    ∃ s i, stops[k]? = some s ∧ ids[k]? = some i ∧
      (placedRows hasActual places parentId stops ids)[k]? = some (placedRow hasActual places parentId (s, k) i) := by
  have hs := List.getElem?_eq_getElem hk
  have hi := List.getElem?_eq_getElem (h ▸ hk)
  exact ⟨_, _, hs, hi, getElem?_placedRows.2 ⟨_, _, hs, hi, rfl⟩⟩

theorem length_placedRows (h : ids.length = stops.length) :
    (placedRows hasActual places parentId stops ids).length = stops.length := by
  simp [placedRows, h]

theorem map_fst_placedRows (h : ids.length = stops.length) :
    (placedRows hasActual places parentId stops ids).map Prod.fst = ids := by
  refine List.ext_getElem? fun k => ?_
  rw [List.getElem?_map]
  by_cases hk : k < stops.length
  · obtain ⟨s, i, -, hi, hrow⟩ := getElem?_placedRows_of_lt h hk
    rw [hrow, hi]
    rfl
  · rw [List.getElem?_eq_none (by rw [length_placedRows h]; omega), List.getElem?_eq_none (by omega), Option.map_none]

theorem map_sequenceNo_placedRows (h : ids.length = stops.length) :
    (placedRows hasActual places parentId stops ids).map (fun r => r.2.sequenceNo) =
      (List.range stops.length).map fun k : ℕ => (k : ℤ) + 1 := by
  refine List.ext_getElem? fun k => ?_
  rw [List.getElem?_map, List.getElem?_map]
  by_cases hk : k < stops.length
  · obtain ⟨s, i, -, -, hrow⟩ := getElem?_placedRows_of_lt h hk
    rw [hrow, List.getElem?_range hk]
    rfl
  · rw [List.getElem?_eq_none (by rw [length_placedRows h]; omega), List.getElem?_eq_none (by simp; omega)]
    rfl

theorem pairwise_placedRows : (placedRows hasActual places parentId stops ids).Pairwise placeOrder := by
  rw [List.pairwise_iff_getElem]
  intro i j hi hj hlt
  obtain ⟨s, a, -, -, hrow⟩ := getElem?_placedRows.1 (List.getElem?_eq_getElem hi)
  obtain ⟨s', b, -, -, hrow'⟩ := getElem?_placedRows.1 (List.getElem?_eq_getElem hj)
  rw [hrow, hrow']
  refine .inl ?_
  simp only [placedRow, RouteStop.applyTo]
  omega

instance : Std.Total placeOrder := ⟨fun a b => by
  simp only [placeOrder]
  omega⟩

instance : IsTrans (ℕ × RoutePlace) placeOrder := ⟨fun a b c hab hbc => by
  simp only [placeOrder] at hab hbc ⊢
  omega⟩

/-- Rows that are a route are read in its order. -/
theorem insertionSort_placedRows {rows : List (ℕ × RoutePlace)} (hkeys : (rows.map Prod.fst).Nodup)
    (hsorted : rows.Pairwise placeOrder)
    (hmem : ∀ i row, (i, row) ∈ rows ↔ t.get? i = some row ∧ row.parentId = parentId) :
    (t.select fun p => p.parentId == parentId).insertionSort placeOrder = rows := by
  refine Table.insertionSort_select ?_ hkeys hsorted ?_
  · intro a b hab hba
    simp only [placeOrder] at hab hba
    omega
  · intro i row
    rw [hmem, beq_iff_eq]

/-- The submitted row has the id of a stored row of the parent. -/
def NamesStored (places : Table RoutePlace) (parentId : ℕ) (row : RouteStopPayload) (id : ℕ) : Prop :=
  row.id.get?.bind Reference.asInt = some id ∧ StoredUnder places parentId id

theorem rowId_eq_some {row : RouteStopPayload} {id : ℕ} :
    row.rowId (knownRoles places parentId) = some id ↔ NamesStored places parentId row id := by
  have hany : ((knownRoles places parentId).any fun k => k.1 == id) = true ↔ StoredUnder places parentId id := by
    rw [List.any_eq_true]
    constructor
    · rintro ⟨k, hk, heq⟩
      obtain ⟨r, hr, rfl⟩ := List.mem_map.1 hk
      rw [← beq_iff_eq.1 heq]
      exact storedUnder_of_mem hr
    · rintro ⟨old, hold, hparent⟩
      refine ⟨_, List.mem_map_of_mem (Table.mem_select.2 ⟨hold, beq_iff_eq.2 hparent⟩), beq_self_eq_true id⟩
  rw [RouteStopPayload.rowId, Option.filter_eq_some_iff, hany, NamesStored]

/-- The route that a save leaves behind, under these ids: the first row that names a stored one keeps its id, the other
rows are new, and what is not named is gone. -/
structure RouteSaved (roles : Table PlaceRole) (hasActual : Bool) (places : Table RoutePlace) (parentId : ℕ)
    (supplied : List RouteStopPayload) (ids : List ℕ) (places' : Table RoutePlace) : Prop where
  length : ids.length = supplied.length
  route : (places'.select fun p => p.parentId == parentId).insertionSort placeOrder =
    placedRows hasActual places parentId (supplied.map (resolveRouteStop roles (knownRoles places parentId))) ids
  numbered : ((places'.select fun p => p.parentId == parentId).insertionSort placeOrder).map (fun r => r.2.sequenceNo) =
    (List.range supplied.length).map fun k : ℕ => (k : ℤ) + 1
  keeps : ∀ k row id, supplied[k]? = some row → NamesStored places parentId row id →
    (∀ earlier ∈ supplied.take k, ¬NamesStored places parentId earlier id) → ids[k]? = some id
  fresh : ∀ k id, ids[k]? = some id → places.get? id = none ∨ ∃ row, supplied[k]? = some row ∧
    NamesStored places parentId row id ∧ ∀ earlier ∈ supplied.take k, ¬NamesStored places parentId earlier id
  deleted : ∀ id, StoredUnder places parentId id → id ∉ ids → places'.get? id = none

variable {roles : Table PlaceRole} {rows : Field (List RouteStopPayload)} {places' : Table RoutePlace}

/-- What the loop and the deletions leave. -/
theorem saveRouteStops_progress (h : saveRouteStops roles hasActual places parentId rows = .ok places') :
    ∃ ids w, RouteProgress hasActual places parentId
        ((startedRows rows).map (resolveRouteStop roles (knownRoles places parentId))) ids w ∧
      ∀ i row, places'.get? i = some row ↔
        w.places.get? i = some row ∧ (StoredUnder places parentId i → i ∈ w.kept) := by
  simp only [saveRouteStops, bind_eq_ok, pure_eq_ok] at h
  obtain ⟨stops, hstops, rfl⟩ := h
  have hknown : ∀ stop ∈ stops, ∀ id ∈ stop.rowId, StoredUnder places parentId id := by
    intro stop hstop id hid
    have hmem := resolveRouteStops_rowId hstops stop hstop id hid
    obtain ⟨k, hk, rfl⟩ := List.mem_map.1 hmem
    obtain ⟨r, hr, rfl⟩ := List.mem_map.1 hk
    exact storedUnder_of_mem hr
  obtain rfl := (resolveRouteStops_eq_ok.1 hstops).2
  obtain ⟨ids, hrun⟩ := (RouteProgress.start hasActual places parentId).run _ hknown
  refine ⟨ids, _, hrun, fun i row => ?_⟩
  rw [Table.get?_erase, Option.filter_eq_some_iff]
  refine and_congr_right fun _ => ?_
  have hany : ((places.select fun p => p.parentId == parentId).any fun r => r.1 == i) = true ↔
      StoredUnder places parentId i := by
    rw [List.any_eq_true]
    constructor
    · rintro ⟨r, hr, heq⟩
      rw [← beq_iff_eq.1 heq]
      exact storedUnder_of_mem hr
    · rintro ⟨old, hold, hparent⟩
      exact ⟨(i, old), Table.mem_select.2 ⟨hold, beq_iff_eq.2 hparent⟩, beq_self_eq_true i⟩
  rw [← hany, Bool.not_eq_true', Bool.and_eq_false_iff, decide_eq_false_iff_not, not_not, ← Bool.not_eq_true]
  exact Iff.symm imp_iff_not_or

/-- A row of the parent after the save is one that the loop placed. -/
theorem mem_placedRows_iff {w : RouteWrite} (hrun : RouteProgress hasActual places parentId stops ids w)
    (hids : ∀ i ∈ ids, places.get? i = none ∨ StoredUnder places parentId i)
    (hafter : ∀ i row, places'.get? i = some row ↔
      w.places.get? i = some row ∧ (StoredUnder places parentId i → i ∈ w.kept)) (i : ℕ) (row : RoutePlace) :
    (i, row) ∈ placedRows hasActual places parentId stops ids ↔ places'.get? i = some row ∧ row.parentId = parentId := by
  rw [hafter, List.mem_iff_getElem?]
  constructor
  · rintro ⟨k, hk⟩
    obtain ⟨s, i', hs, hi, heq⟩ := getElem?_placedRows.1 hk
    cases heq
    have hmem := List.mem_of_getElem? hi
    refine ⟨⟨hrun.rows k s i hs hi, ?_⟩, ?_⟩
    · rintro ⟨old, hold, -⟩
      exact (hrun.kept i).2 ⟨hmem, by simp [hold]⟩
    · rcases hids i hmem with hnone | ⟨old, hold, hparent⟩
      · rw [hnone, Option.getD_none]
        rfl
      · rw [hold, Option.getD_some]
        exact hparent
  · rintro ⟨⟨hrow, hkept⟩, hparent⟩
    have hmem : i ∈ ids := by
      by_contra hnot
      rw [hrun.rest i hnot, get?_parkedPlaces, Option.map_eq_some_iff] at hrow
      obtain ⟨old, hold, rfl⟩ := hrow
      have hunder : old.parentId = parentId := by
        split at hparent
        · next hyes => exact hyes
        · exact hparent
      exact hnot ((hrun.kept i).1 (hkept ⟨old, hold, hunder⟩)).1
    obtain ⟨k, hk⟩ := List.mem_iff_getElem?.1 hmem
    obtain ⟨hlt, -⟩ := List.getElem?_eq_some_iff.1 hk
    have hs := List.getElem?_eq_getElem (hrun.length ▸ hlt)
    have hplaced := hrun.rows k _ i hs hk
    rw [hrow, Option.some.injEq] at hplaced
    exact ⟨k, getElem?_placedRows.2 ⟨_, i, hs, hk, by rw [hplaced]; rfl⟩⟩

theorem routeSaved_of_ok (h : saveRouteStops roles hasActual places parentId rows = .ok places') :
    ∃ ids, RouteSaved roles hasActual places parentId (startedRows rows) ids places' := by
  obtain ⟨ids, w, hrun, hafter⟩ := saveRouteStops_progress h
  have hids : ∀ i ∈ ids, places.get? i = none ∨ StoredUnder places parentId i := by
    intro i hi
    by_cases hnone : places.get? i = none
    · exact .inl hnone
    · obtain ⟨k, hk⟩ := List.mem_iff_getElem?.1 hi
      obtain ⟨s, hs, hrow, -⟩ := hrun.fresh k i hk hnone
      rw [List.getElem?_map, Option.map_eq_some_iff] at hs
      obtain ⟨row, -, rfl⟩ := hs
      exact .inr (rowId_eq_some.1 hrow).2
  have hlength : ids.length = (startedRows rows).length := hrun.length.trans (List.length_map _)
  have hkeys : ((placedRows hasActual places parentId _ ids).map Prod.fst).Nodup :=
    (map_fst_placedRows hrun.length).symm ▸ hrun.nodup
  have hroute := insertionSort_placedRows hkeys pairwise_placedRows (mem_placedRows_iff hrun hids hafter)
  have hnames : ∀ k id, (∀ s' ∈ ((startedRows rows).map (resolveRouteStop roles (knownRoles places parentId))).take k,
      s'.rowId ≠ some id) ↔ ∀ earlier ∈ (startedRows rows).take k, ¬NamesStored places parentId earlier id := by
    intro k id
    rw [← List.map_take, List.forall_mem_map]
    exact forall₂_congr fun row _ => not_congr rowId_eq_some
  refine ⟨ids, hlength, hroute, ?_, ?_, ?_, ?_⟩
  · rw [hroute, map_sequenceNo_placedRows hrun.length, List.length_map]
  · intro k row id hrow hnamed hfirst
    refine hrun.named k (resolveRouteStop roles (knownRoles places parentId) row) id ?_ (rowId_eq_some.2 hnamed)
      ((hnames k id).2 hfirst)
    rw [List.getElem?_map, hrow, Option.map_some]
  · intro k id hid
    by_cases hnone : places.get? id = none
    · exact .inl hnone
    · obtain ⟨s, hs, hrow, hfirst⟩ := hrun.fresh k id hid hnone
      rw [List.getElem?_map, Option.map_eq_some_iff] at hs
      obtain ⟨row, hget, rfl⟩ := hs
      exact .inr ⟨row, hget, rowId_eq_some.1 hrow, (hnames k id).1 hfirst⟩
  · intro id hstored hnot
    rw [Option.eq_none_iff_forall_ne_some]
    intro row hrow
    exact hnot ((hrun.kept id).1 (((hafter id row).1 hrow).2 hstored)).1

/-! ## The numbers during the flushes -/

/-- Between two tables whose numbers cannot meet. -/
theorem sequenceUnique_onTheWay {before after : Table RoutePlace} (hbefore : SequenceUnique before parentId)
    (hafter : SequenceUnique after parentId)
    (hmeet : ∀ i j p q, before.get? i = some p → after.get? j = some q → p.parentId = parentId → q.parentId = parentId →
      p.sequenceNo = q.sequenceNo → i = j)
    (h : OnTheWay before after parentId t) : SequenceUnique t parentId := by
  intro i j p q hp hq hpp hqp heq
  rcases h i p hp hpp with hpb | hpa
  · rcases h j q hq hqp with hqb | hqa
    · exact hbefore i j p q hpb hqb hpp hqp heq
    · exact hmeet i j p q hpb hqa hpp hqp heq
  · rcases h j q hq hqp with hqb | hqa
    · exact (hmeet j i q p hqb hpa hqp hpp heq.symm).symm
    · exact hafter i j p q hpa hqa hpp hqp heq

theorem sequenceUnique_parked : SequenceUnique (parkedPlaces places parentId) parentId := by
  intro i j p q hp hq hpp hqp heq
  rw [parked_sequenceNo hp hpp, parked_sequenceNo hq hqp] at heq
  omega

theorem RouteSaved.exists_index {supplied : List RouteStopPayload}
    (h : RouteSaved roles hasActual places parentId supplied ids places') {i : ℕ} {row : RoutePlace}
    (hrow : places'.get? i = some row) (hparent : row.parentId = parentId) :
    ∃ k : ℕ, ids[k]? = some i ∧ row.sequenceNo = (k : ℤ) + 1 := by
  have hmem : (i, row) ∈ (places'.select fun p => p.parentId == parentId).insertionSort placeOrder := by
    rw [List.mem_insertionSort]
    exact Table.mem_select.2 ⟨hrow, beq_iff_eq.2 hparent⟩
  rw [h.route] at hmem
  obtain ⟨k, hk⟩ := List.mem_iff_getElem?.1 hmem
  obtain ⟨s, i', -, hi, heq⟩ := getElem?_placedRows.1 hk
  cases heq
  exact ⟨k, hi, rfl⟩

theorem RouteSaved.sequenceUnique {supplied : List RouteStopPayload}
    (h : RouteSaved roles hasActual places parentId supplied ids places') : SequenceUnique places' parentId := by
  intro i j p q hp hq hpp hqp heq
  obtain ⟨k, hk, hseq⟩ := h.exists_index hp hpp
  obtain ⟨l, hl, hseq'⟩ := h.exists_index hq hqp
  obtain rfl : k = l := by omega
  rw [hk, Option.some.injEq] at hl
  exact hl

/-- **A save of a route**: a refused one flushes nothing. An accepted one leaves the started rows in their order under
the numbers from 1, keeps the id of a stored row for the first row that names it, and touches no other parent. No two
rows of the parent have one number after a flush, or on the way to the second one; nor on the way to the first one, if
the stored numbers are positive and distinct. -/
theorem saveRouteStops_exact (roles : Table PlaceRole) (hasActual : Bool) (places : Table RoutePlace) (parentId : ℕ)
    (rows : Field (List RouteStopPayload)) :
    (∀ e, saveRouteStops roles hasActual places parentId rows = .error e →
      routeFlushes roles hasActual places parentId rows = []) ∧
    ∀ places', saveRouteStops roles hasActual places parentId rows = .ok places' →
      (∃ ids, RouteSaved roles hasActual places parentId (startedRows rows) ids places') ∧
      (∀ other, other ≠ parentId →
        (places'.select fun p => p.parentId == other) = places.select fun p => p.parentId == other) ∧
      (∀ t ∈ routeFlushes roles hasActual places parentId rows, SequenceUnique t parentId) ∧
      (∀ t, OnTheWay (parkedPlaces places parentId) places' parentId t → SequenceUnique t parentId) ∧
      (SequenceUnique places parentId →
        (∀ i p, places.get? i = some p → p.parentId = parentId → 0 < p.sequenceNo) →
        ∀ t, OnTheWay places (parkedPlaces places parentId) parentId t → SequenceUnique t parentId) := by
  constructor
  · intro e he
    simp only [routeFlushes, he]
  · intro places' h
    obtain ⟨ids, hsaved⟩ := routeSaved_of_ok h
    refine ⟨⟨ids, hsaved⟩, fun other hne => saveRouteStops_others hne h, ?_, ?_, ?_⟩
    · intro t ht
      simp only [routeFlushes, h] at ht
      split at ht
      · rw [List.mem_singleton] at ht
        exact ht ▸ hsaved.sequenceUnique
      · rcases List.mem_cons.1 ht with rfl | ht
        · exact sequenceUnique_parked
        · rw [List.mem_singleton] at ht
          exact ht ▸ hsaved.sequenceUnique
    · intro t ht
      refine sequenceUnique_onTheWay sequenceUnique_parked hsaved.sequenceUnique ?_ ht
      intro i j p q hp hq hpp hqp heq
      obtain ⟨k, -, hseq⟩ := hsaved.exists_index hq hqp
      rw [parked_sequenceNo hp hpp] at heq
      omega
    · intro hunique hpositive t ht
      refine sequenceUnique_onTheWay hunique sequenceUnique_parked ?_ ht
      intro i j p q hp hq hpp hqp heq
      have hpos := hpositive i p hp hpp
      rw [parked_sequenceNo hq hqp] at heq
      omega

end
/-- A stop at a port, sent for the stored row with this id. -/
def portStop (id : ℕ) : RouteStopPayload where
  started := true
  id := .value (.id id)
  placeRoleId := .value (.id 1)
  placeRole := .absent
  place := .value "Quay 4"
  planned := .absent
  actual := .absent
  notes := .absent

def portRoles : Table PlaceRole := Table.empty.insert ⟨"PORT", "Port", true⟩

/-- Two rows of parent 1. -/
def twoStops : Table RoutePlace :=
  (Table.empty.insert ⟨1, some 1, "Port", 1, none, none, some "Quay 1", none⟩).insert
    ⟨1, some 1, "Port", 2, none, none, some "Quay 2", none⟩

/-- The second row comes first, is sent twice, and a row of nobody is named: two rows are new, and the first row of the
route is gone. -/
theorem saveRouteStops_exact_repeated :
    ∃ places' ids, saveRouteStops portRoles true twoStops 1 (.value [portStop 2, portStop 2, portStop 9]) = .ok places' ∧
      RouteSaved portRoles true twoStops 1 [portStop 2, portStop 2, portStop 9] ids places' ∧
      places'.rows.map Prod.fst = [2, 3, 4] := by
  obtain ⟨places', hsave, hkeys⟩ := okAnd_eq_true.1
    (show okAnd (saveRouteStops portRoles true twoStops 1 (.value [portStop 2, portStop 2, portStop 9]))
      (fun places' => places'.rows.map Prod.fst = [2, 3, 4]) = true by decide +kernel)
  obtain ⟨⟨ids, hids⟩, -⟩ :=
    (saveRouteStops_exact portRoles true twoStops 1 (.value [portStop 2, portStop 2, portStop 9])).2 places' hsave
  exact ⟨places', ids, hsave, hids, hkeys⟩

end LcsSystem
