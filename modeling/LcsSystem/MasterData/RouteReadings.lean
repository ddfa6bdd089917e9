import LcsSystem.MasterData.RouteStops

/-!
# Routes that are read and written back

`route_stop_payloads` (`src/backend/app/modules/master_data/route_stops.py:219-282`) renders the stored stops as
a form submits them. `resolveRouteStops_payloads` says when such a route is accepted again;
`saveRouteStops_written` where the rows of a parent come from after a save.
-/

namespace LcsSystem
open Relational Checks

/-! ## Payloads -/

/-- `route_stop_payload` of a stored stop, under the name that its role has now. -/
def routeStopPayload (roles : Table PlaceRole) (row : ℕ × RoutePlace) : RouteStopPayload :=
  let label := ((row.2.placeRoleId.bind roles.get?).map PlaceRole.name).getD row.2.placeRole
  let place := row.2.freeText.getD ""
  let notes := row.2.notes.getD ""
  { started := row.2.placeRoleId.isSome || strip label != "" || strip place != "" || row.2.plannedAt.isSome ||
      row.2.actualAt.isSome || strip notes != ""
    id := .value (.text (toString row.1))
    placeRoleId := (row.2.placeRoleId.map fun id => Field.value (.text (toString id))).getD .blank
    placeRole := .value label
    place := .value place
    planned := (row.2.plannedAt.map Field.value).getD .blank
    actual := (row.2.actualAt.map Field.value).getD .blank
    notes := .value notes }

/-- `revision_route_payloads`: the rows in the order of the route. -/
def routeStopPayloads (roles : Table PlaceRole) (rows : List (ℕ × RoutePlace)) : List RouteStopPayload :=
  (rows.insertionSort placeOrder).map (routeStopPayload roles)

/-- What every stop has that was once accepted. -/
structure KeptStop (roles : Table PlaceRole) (p : RoutePlace) : Prop where
  role : ∃ id role, p.placeRoleId = some id ∧ roles.get? id = some role
  place : ∃ text, p.freeText = some text ∧ strip text = text ∧ text ≠ "" ∧ text.length ≤ 500
  notes : ∀ text ∈ p.notes, strip text = text ∧ text ≠ "" ∧ text.length ≤ 2000

/-- Keys start at 1. -/
def PositiveKeys {α : Type} (t : Table α) : Prop := 0 < t.nextId ∧ ∀ id a, t.get? id = some a → 0 < id

/-- A stop that can be written again: the name of its role is not too long for the form, and the role is
active or the one of the `known` row. -/
def StopAccepted (roles : Table PlaceRole) (known : List (ℕ × Option ℕ)) (row : ℕ × RoutePlace) : Prop :=
  ∀ id ∈ row.2.placeRoleId, ∀ role ∈ roles.get? id,
    (strip role.name).length ≤ 64 ∧ (role.active = true ∨ (known.lookup row.1).bind (fun stored => stored) = some id)

/-! ## Acceptance -/

/-- The role of the stored row that a submitted one names. -/
def RouteStopPayload.storedRole (known : List (ℕ × Option ℕ)) (row : RouteStopPayload) : Option ℕ :=
  (row.rowId known).bind fun id => (known.lookup id).bind fun role => role

/-- A submitted stop has a role that it may use, and a place. -/
structure StopResolved (roles : Table PlaceRole) (known : List (ℕ × Option ℕ)) (row : RouteStopPayload) : Prop where
  role : ∃ reference id role, row.roleReference = some reference ∧ roleFor roles reference = some (id, role) ∧
    (role.active = true ∨ row.storedRole known = some id)
  place : ∃ text, row.place.text.get? = some text

theorem routeStopErrors_eq_nil {roles : Table PlaceRole} {known : List (ℕ × Option ℕ)} {field : String} {index : ℕ}
    {row : RouteStopPayload} : routeStopErrors roles known field index row = [] ↔ StopResolved roles known row := by
  have hplace : (∃ text, row.place.text.get? = some text) ↔ row.place.text.get?.isNone = false := by
    rw [← Option.isSome_iff_exists]
    cases row.place.text.get? <;> simp
  constructor
  · intro h
    rw [routeStopErrors, List.append_eq_nil_iff] at h
    refine ⟨?_, hplace.2 ?_⟩
    · have hrole := h.1
      split at hrole
      · cases hrole
      · next reference hreference =>
        split at hrole
        · cases hrole
        · next id role hfound =>
          refine ⟨reference, id, role, hreference, hfound, ?_⟩
          split at hrole
          · cases hrole
          · next hallowed =>
            rw [not_and_or, Bool.not_eq_false, not_not] at hallowed
            exact hallowed
    · by_contra hnone
      rw [if_pos (Bool.eq_true_of_not_eq_false hnone)] at h
      cases h.2
  · rintro ⟨⟨reference, id, role, hreference, hfound, hallowed⟩, hgiven⟩
    have hactive : ¬(role.active = false ∧ row.storedRole known ≠ some id) := by
      rintro ⟨hinactive, hother⟩
      rcases hallowed with hactive | hstored
      · rw [hinactive] at hactive
        cases hactive
      · exact hother hstored
    simp only [routeStopErrors, hreference, hfound, hplace.1 hgiven, Bool.false_eq_true, if_false, List.append_nil]
    exact if_neg hactive

/-- **A route is accepted** where every started row of it is. -/
theorem resolveRouteStops_eq_ok {roles : Table PlaceRole} {known : List (ℕ × Option ℕ)}
    {rows : Field (List RouteStopPayload)} {stops : List RouteStop} :
    resolveRouteStops roles known rows = .ok stops ↔
      (∀ row ∈ startedRows rows, routeStopSchema row = [] ∧ StopResolved roles known row) ∧
        stops = (startedRows rows).map (resolveRouteStop roles known) := by
  have herrors := flatten_zipIdx_eq_nil (f := fun row index => routeStopErrors roles known "places" index row)
    (fun _ _ => routeStopErrors_eq_nil) (startedRows rows)
  simp only [resolveRouteStops, bind_eq_ok, validateLineItems_eq_ok, check_eq_ok, pure_eq_ok, herrors, forall_and]
  constructor
  · rintro ⟨_, hschema, _, hresolved, rfl⟩
    exact ⟨⟨hschema, hresolved⟩, rfl⟩
  · rintro ⟨⟨hschema, hresolved⟩, rfl⟩
    exact ⟨⟨⟩, hschema, ⟨⟩, hresolved, rfl⟩

/-! ## A route that was read -/

theorem toString_ne (n : ℕ) : toString n ≠ "" := by
  intro h
  have hdigits := (digits?_toString n).2
  rw [h] at hdigits
  cases hdigits

/-- An id that was rendered as text, in a field. -/
theorem reference?_toString (n : ℕ) : (Field.value (Reference.text (toString n))).reference? = some (.text (toString n)) := by
  simp only [Field.reference?, (digits?_toString n).1, toString_ne, if_false]

theorem asInt_toString {n : ℕ} (h : 0 < n) : (Reference.text (toString n)).asInt = some n := by
  rw [Reference.asInt, Reference.number_toString, Option.filter_some, if_pos (decide_eq_true h)]

theorem roleFor_toString {roles : Table PlaceRole} {id : ℕ} {role : PlaceRole} (hid : 0 < id)
    (hrole : roles.get? id = some role) : roleFor roles (.text (toString id)) = some (id, role) := by
  simp only [roleFor, asInt_toString hid, hrole, Option.map_some]

section
variable {roles : Table PlaceRole} {known : List (ℕ × Option ℕ)} {row : ℕ × RoutePlace} {id : ℕ} {role : PlaceRole}

theorem roleReference_payload (hrole : row.2.placeRoleId = some id) :
    (routeStopPayload roles row).roleReference = some (.text (toString id)) := by
  simp only [routeStopPayload, RouteStopPayload.roleReference, hrole, Option.map_some, Option.getD_some,
    reference?_toString, Option.some_or]

/-- The role of the known row that a payload names. -/
theorem storedRole_payload (hrow : 0 < row.1) :
    (routeStopPayload roles row).storedRole known =
      (known.lookup row.1).bind fun stored => stored := by
  simp only [routeStopPayload, RouteStopPayload.storedRole, RouteStopPayload.rowId, Field.get?, Option.bind_some, asInt_toString hrow]
  by_cases hknown : known.any (fun k => k.1 == row.1) = true
  · simp [Option.filter, hknown]
  · have hnone : known.lookup row.1 = none := by
      rw [List.lookup_eq_none_iff]
      intro k hk
      rw [bne_iff_ne]
      intro heq
      exact hknown (List.any_eq_true.2 ⟨k, hk, beq_iff_eq.2 heq.symm⟩)
    simp [Option.filter, hknown, hnone]

theorem routeStopSchema_payload (hkept : KeptStop roles row.2) (hrole : row.2.placeRoleId = some id)
    (hget : roles.get? id = some role) :
    routeStopSchema (routeStopPayload roles row) = [] ↔ (strip role.name).length ≤ 64 := by
  obtain ⟨place, hplace, hstrip, -, hlength⟩ := hkept.place
  have hreference : Reference.check "placeRoleId" none (Field.value (Reference.text (toString id))) = [] := rfl
  have hdate : ∀ key (t : Option Timestamp), checkDateTime key ((t.map Field.value).getD .blank) = [] := by
    rintro key (_ | t) <;> rfl
  have hnotes : (strip (row.2.notes.getD "")).length ≤ 2000 := by
    cases hn : row.2.notes with
    | none => decide
    | some text =>
      obtain ⟨hsame, -, hle⟩ := hkept.notes text hn
      rw [Option.getD_some, hsame]
      exact hle
  simp only [routeStopSchema, routeStopPayload, hrole, Option.map_some, Option.getD_some, hreference, hdate,
    TextSpec.check_value_eq_nil, List.append_eq_nil_iff, Option.bind_some, hget, hplace, hstrip, hlength, hnotes,
    true_and, and_true]

theorem stopResolved_payload (hkept : KeptStop roles row.2) (hrole : row.2.placeRoleId = some id)
    (hget : roles.get? id = some role) (hid : 0 < id) (hrow : 0 < row.1) :
    StopResolved roles known (routeStopPayload roles row) ↔
      role.active = true ∨ (known.lookup row.1).bind (fun stored => stored) = some id := by
  obtain ⟨place, hplace, hstrip, hne, -⟩ := hkept.place
  have hgiven : (routeStopPayload roles row).place.text.get? = some place := by
    simp [routeStopPayload, hplace, Field.text, hstrip, hne, Field.get?]
  rw [← storedRole_payload hrow]
  constructor
  · rintro ⟨⟨reference, id', role', hreference, hfound, hallowed⟩, -⟩
    rw [roleReference_payload hrole, Option.some.injEq] at hreference
    subst hreference
    rw [roleFor_toString hid hget, Option.some.injEq, Prod.mk.injEq] at hfound
    obtain ⟨rfl, rfl⟩ := hfound
    exact hallowed
  · intro hallowed
    exact ⟨⟨_, id, role, roleReference_payload hrole, roleFor_toString hid hget, hallowed⟩, place, hgiven⟩

end

/-- A stored stop is submitted. -/
theorem started_payload {roles : Table PlaceRole} {row : ℕ × RoutePlace} (hkept : KeptStop roles row.2) :
    (routeStopPayload roles row).started = true := by
  obtain ⟨id, -, hid, -⟩ := hkept.role
  simp only [routeStopPayload, hid, Option.isSome_some, Bool.true_or]

/-- **A route is accepted as it was read** exactly where each stop of it may still be written. -/
theorem resolveRouteStops_payloads {roles : Table PlaceRole} {known : List (ℕ × Option ℕ)} {rows : List (ℕ × RoutePlace)}
    (hroles : PositiveKeys roles) (hrows : ∀ row ∈ rows, KeptStop roles row.2 ∧ 0 < row.1) :
    (∃ stops, resolveRouteStops roles known (.value (routeStopPayloads roles rows)) = .ok stops) ↔
      ∀ row ∈ rows, StopAccepted roles known row := by
  have hsorted : ∀ row ∈ rows.insertionSort placeOrder, KeptStop roles row.2 ∧ 0 < row.1 := by
    intro row hrow
    rw [List.mem_insertionSort] at hrow
    exact hrows row hrow
  have hstarted : startedRows (.value (routeStopPayloads roles rows)) = routeStopPayloads roles rows := by
    rw [startedRows, List.filter_eq_self]
    intro payload hpayload
    obtain ⟨row, hrow, rfl⟩ := List.mem_map.1 hpayload
    exact started_payload (hsorted row hrow).1
  have hstop : ∀ row ∈ rows.insertionSort placeOrder,
      (routeStopSchema (routeStopPayload roles row) = [] ∧ StopResolved roles known (routeStopPayload roles row) ↔
        StopAccepted roles known row) := by
    intro row hrow
    obtain ⟨hkept, hpos⟩ := hsorted row hrow
    obtain ⟨id, role, hid, hrole⟩ := hkept.role
    rw [routeStopSchema_payload hkept hid hrole, stopResolved_payload hkept hid hrole (hroles.2 id role hrole) hpos]
    simp only [StopAccepted, hid, hrole, Option.mem_def, Option.some.injEq, forall_eq']
  simp only [resolveRouteStops_eq_ok, hstarted, exists_and_left, exists_eq, and_true]
  rw [routeStopPayloads, List.forall_mem_map]
  constructor
  · intro h row hrow
    have hmem := (List.mem_insertionSort placeOrder).2 hrow
    exact (hstop row hmem).1 (h row hmem)
  · intro h row hrow
    exact (hstop row hrow).2 (h row ((List.mem_insertionSort placeOrder).1 hrow))

/-! ## Stops that were accepted -/

theorem roleFor_eq_some {roles : Table PlaceRole} {reference : Reference} {id : ℕ} {role : PlaceRole}
    (h : roleFor roles reference = some (id, role)) : roles.get? id = some role := by
  unfold roleFor at h
  split at h
  · rw [Option.map_eq_some_iff] at h
    obtain ⟨found, hfound, heq⟩ := h
    cases heq
    exact hfound
  · exact Table.get?_eq_some.2 (List.mem_of_find?_eq_some h)

theorem clip_of_le {n : ℕ} {s : String} (h : s.length ≤ n) : clip n s = s := by
  rw [clip, List.take_of_length_le h, String.ofList_toList]

/-- What is written of an accepted stop can be read back. -/
theorem StopResolved.keptStop {roles : Table PlaceRole} {known : List (ℕ × Option ℕ)} {row : RouteStopPayload}
    (h : StopResolved roles known row) (hschema : routeStopSchema row = []) (hasActual : Bool) (index : ℕ)
    (base : RoutePlace) : KeptStop roles ((resolveRouteStop roles known row).applyTo hasActual index base) := by
  obtain ⟨⟨reference, id, role, hreference, hfound, -⟩, text, htext⟩ := h
  simp only [routeStopSchema, List.append_eq_nil_iff] at hschema
  obtain ⟨⟨⟨⟨⟨-, -⟩, hplace⟩, -⟩, -⟩, hnotes⟩ := hschema
  have hrole : row.roleReference.bind (roleFor roles) = some (id, role) := by rw [hreference, Option.bind_some, hfound]
  refine ⟨⟨id, role, ?_, roleFor_eq_some hfound⟩, ⟨text, ?_, ?_, ?_, TextSpec.length_le hplace text htext⟩, ?_⟩
  · simp only [RouteStop.applyTo, resolveRouteStop, hrole, Option.map_some]
  · simp only [RouteStop.applyTo, resolveRouteStop, htext, Option.getD_some,
      clip_of_le (TextSpec.length_le hplace text htext)]
  · exact (text_get?_eq_some htext).1
  · exact (text_get?_eq_some htext).2
  · intro note hnote
    obtain ⟨hstrip, hne⟩ := text_get?_eq_some hnote
    exact ⟨hstrip, hne, TextSpec.length_le hnotes note hnote⟩

/-! ## Rows that were written -/

/-- While the stops are written: a row of the parent that is final was written from one of them, and a
stored row from a stop that names it. -/
structure RouteWritten (hasActual : Bool) (places : Table RoutePlace) (parentId : ℕ) (w : RouteWrite)
    (done : List (ℕ × RouteStop)) : Prop where
  grown : places.nextId ≤ w.places.nextId
  kept : ∀ id ∈ w.kept, id ∈ w.used
  rows : ∀ i row, w.places.get? i = some row → row.parentId = parentId → i ∈ w.kept ∨ ¬StoredUnder places parentId i →
    ∃ s index base, (i, s) ∈ done ∧ row = s.applyTo hasActual index base ∧
      (StoredUnder places parentId i → s.rowId = some i)

section
variable {hasActual : Bool} {places : Table RoutePlace} {parentId : ℕ} {w : RouteWrite} {done : List (ℕ × RouteStop)}

/-- Rows that were written stay as they are. -/
theorem RouteWritten.row_append (h : RouteWritten hasActual places parentId w done) (entry : ℕ × RouteStop) {i : ℕ}
    {row : RoutePlace} (hrow : w.places.get? i = some row) (hparent : row.parentId = parentId)
    (hfinal : i ∈ w.kept ∨ ¬StoredUnder places parentId i) :
    ∃ s index base, (i, s) ∈ done ++ [entry] ∧ row = s.applyTo hasActual index base ∧
      (StoredUnder places parentId i → s.rowId = some i) := by
  obtain ⟨s, index, base, hmem, hwritten, hnamed⟩ := h.rows i row hrow hparent hfinal
  exact ⟨s, index, base, List.mem_append_left _ hmem, hwritten, hnamed⟩

theorem RouteWritten.step (h : RouteWritten hasActual places parentId w done) (stop : RouteStop × ℕ) :
    ∃ key, RouteWritten hasActual places parentId (writeStop hasActual parentId w stop) (done ++ [(key, stop.1)]) := by
  unfold writeStop
  cases hfirst : stop.1.rowId.filter fun id => id ∉ w.used with
  | some id =>
    obtain ⟨hid, hunused⟩ := Option.filter_eq_some_iff.1 hfirst
    refine ⟨id, h.grown, ?_, fun i row hrow hparent hfinal => ?_⟩
    · intro i hi
      rcases List.mem_cons.1 hi with rfl | hi
      · exact List.mem_cons_self
      · exact List.mem_cons_of_mem _ (h.kept i hi)
    · by_cases hi : i = id
      · subst hi
        rw [Table.get?_modify_self, Option.map_eq_some_iff] at hrow
        obtain ⟨old, -, rfl⟩ := hrow
        exact ⟨stop.1, stop.2, old, by simp, rfl, fun _ => hid⟩
      · rw [Table.get?_modify_of_ne _ hi] at hrow
        refine h.row_append _ hrow hparent (hfinal.imp_left fun hmem => ?_)
        exact (List.mem_cons.1 hmem).resolve_left hi
  | none =>
    refine ⟨w.places.nextId, h.grown.trans (Nat.le_succ _), ?_, fun i row hrow hparent hfinal => ?_⟩
    · intro i hi
      exact List.mem_append_right _ (h.kept i hi)
    · rw [Table.get?_insert] at hrow
      split at hrow
      · next hi =>
        cases hrow
        refine ⟨stop.1, stop.2, .new parentId, by simp [hi], rfl, ?_⟩
        rintro ⟨old, hold, -⟩
        have hlt := Table.lt_nextId hold
        have hgrown := h.grown
        omega
      · exact h.row_append _ hrow hparent hfinal

theorem RouteWritten.run (h : RouteWritten hasActual places parentId w done) (stops : List (RouteStop × ℕ)) :
    ∃ more, more.map Prod.snd = stops.map Prod.fst ∧
      RouteWritten hasActual places parentId (stops.foldl (writeStop hasActual parentId) w) (done ++ more) := by
  induction stops generalizing w done with
  | nil => exact ⟨[], rfl, by simpa using h⟩
  | cons stop stops ih =>
    obtain ⟨key, hstep⟩ := h.step stop
    obtain ⟨more, hmore, hrun⟩ := ih hstep
    refine ⟨(key, stop.1) :: more, by rw [List.map_cons, List.map_cons, hmore], ?_⟩
    simpa using hrun

/-- Parked rows stay under their parents. -/
theorem get?_foldl_parkRow {t : Table RoutePlace} (rows : List (ℕ × RoutePlace)) {i : ℕ} {row : RoutePlace}
    (h : (rows.foldl parkRow t).get? i = some row) : ∃ old, t.get? i = some old ∧ old.parentId = row.parentId := by
  induction rows generalizing t with
  | nil => exact ⟨row, h, rfl⟩
  | cons r rows ih =>
    obtain ⟨old, hold, hparent⟩ := ih h
    rw [parkRow, Table.get?_modify] at hold
    split at hold
    · rw [Option.map_eq_some_iff] at hold
      obtain ⟨first, hfirst, rfl⟩ := hold
      exact ⟨first, hfirst, hparent⟩
    · exact ⟨old, hold, hparent⟩

theorem nextId_foldl_parkRow (t : Table RoutePlace) (rows : List (ℕ × RoutePlace)) :
    (rows.foldl parkRow t).nextId = t.nextId := by
  induction rows generalizing t with
  | nil => rfl
  | cons r rows ih => exact ih _

/-- **The route after a save** has the accepted stops, each stored row from a stop that names it. -/
theorem saveRouteStops_written {roles : Table PlaceRole} {rows : Field (List RouteStopPayload)} {places' : Table RoutePlace}
    (h : saveRouteStops roles hasActual places parentId rows = .ok places') :
    ∃ (stops : List RouteStop) (done : List (ℕ × RouteStop)), resolveRouteStops roles
        ((places.select fun p => p.parentId == parentId).map fun r => (r.1, r.2.placeRoleId)) rows = .ok stops ∧
      done.map Prod.snd = stops ∧ ∀ i row, places'.get? i = some row → row.parentId = parentId →
        ∃ s index base, (i, s) ∈ done ∧ row = s.applyTo hasActual index base ∧
          (StoredUnder places parentId i → s.rowId = some i) := by
  simp only [saveRouteStops, bind_eq_ok, pure_eq_ok] at h
  obtain ⟨stops, hstops, rfl⟩ := h
  generalize hexisting : (places.select fun p => p.parentId == parentId) = existing
  have hstart : RouteWritten hasActual places parentId ⟨existing.foldl parkRow places, [], []⟩ [] := by
    refine ⟨(nextId_foldl_parkRow places existing).ge, by simp, fun i row hrow hparent hfinal => ?_⟩
    obtain ⟨old, hold, hsame⟩ := get?_foldl_parkRow existing hrow
    rcases hfinal with hmem | hnew
    · cases hmem
    · exact absurd ⟨old, hold, hsame.trans hparent⟩ hnew
  obtain ⟨done, hdone, hwritten⟩ := hstart.run stops.zipIdx
  rw [List.nil_append] at hwritten
  refine ⟨stops, done, hexisting ▸ hstops, hdone.trans (List.zipIdx_map_fst 0 stops), fun i row hrow hparent => ?_⟩
  rw [Table.get?_erase, Option.filter_eq_some_iff] at hrow
  obtain ⟨hrow, hstays⟩ := hrow
  refine hwritten.rows i row hrow hparent ?_
  by_contra hleft
  rw [not_or, not_not] at hleft
  obtain ⟨hunkept, old, hold, hunder⟩ := hleft
  have hany : existing.any (fun r => r.1 == i) = true := by
    rw [← hexisting, List.any_eq_true]
    exact ⟨(i, old), Table.mem_select.2 ⟨hold, beq_iff_eq.2 hunder⟩, beq_self_eq_true i⟩
  simp [hany, hunkept] at hstays

end

end LcsSystem
