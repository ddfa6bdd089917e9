import LcsSystem.Finance.Documents
import LcsSystem.MasterData.References

/-!
# Route stops

`resolve_route_stops` and `save_route_stops` (`src/backend/app/modules/master_data/route_stops.py`), which
a quotation and a service order share: validate the submitted rows, then write them in place. A submitted
row that names a stored one of the same parent keeps its id; the stored rows that are left over are deleted.

A submitted row is read after its keys were matched with the schema's aliases, except for `started`, which
the service decides on the keys as they came. A body whose rows are no list reads as no rows.
-/

namespace LcsSystem
open Relational Checks

structure RouteStopPayload where
  /-- `route_row_started`. -/
  started : Bool
  id : Field Reference
  placeRoleId : Field Reference
  placeRole : Field String
  place : Field String
  planned : Field Timestamp
  actual : Field Timestamp
  notes : Field String

/-- `_datetime` of one field. -/
def checkDateTime (key : String) : Field Timestamp → List FieldErrorItem
  | .malformed => [⟨key, "INVALID_FORMAT", "Enter a valid date and time."⟩]
  | _ => []

/-- `ROUTE_STOP_SCHEMA`. -/
def routeStopSchema (row : RouteStopPayload) : List FieldErrorItem :=
  Reference.check "placeRoleId" none row.placeRoleId ++
  TextSpec.check { key := "placeRole", maxLength := some 64 } row.placeRole ++
  TextSpec.check { key := "place", maxLength := some 500 } row.place ++
  checkDateTime "planned" row.planned ++
  checkDateTime "actual" row.actual ++
  TextSpec.check { key := "notes", maxLength := some 2000 } row.notes

/-! ## Validation -/

/-- `item.get("placeRoleId") or item.get("placeRole")`. -/
def RouteStopPayload.roleReference (row : RouteStopPayload) : Option Reference :=
  row.placeRoleId.reference?.or (row.placeRole.text.get?.map .text)

/-- `_role_for`: by id, else by code or name; an archived role is found too. -/
def roleFor (roles : Table PlaceRole) (reference : Reference) : Option (ℕ × PlaceRole) :=
  match reference.asInt with
  | some id => (roles.get? id).map fun role => (id, role)
  | none => roles.rows.find? fun r => r.2.code == reference.asText || r.2.name == reference.asText

/-- A validated stop; `rowId` is the stored row of the same parent that it names. -/
structure RouteStop where
  rowId : Option ℕ
  placeRoleId : Option ℕ
  placeRole : String
  place : String
  plannedAt : Option Timestamp
  actualAt : Option Timestamp
  notes : Option String
  deriving DecidableEq

/-- The stored row that a submitted one names, among the `known` ones of the parent. -/
def RouteStopPayload.rowId (known : List (ℕ × Option ℕ)) (row : RouteStopPayload) : Option ℕ :=
  (row.id.get?.bind Reference.asInt).filter fun id => known.any fun k => k.1 == id

/-- The errors of row `index`. A role that is not active is kept where the stored row has it. -/
def routeStopErrors (roles : Table PlaceRole) (known : List (ℕ × Option ℕ)) (field : String) (index : ℕ)
    (row : RouteStopPayload) : List (String × String) :=
  let pre := field ++ "." ++ toString index
  let storedRoleId := (row.rowId known).bind fun id => (known.lookup id).bind fun role => role
  let roleErrors := match row.roleReference with
    | none => [(pre ++ ".placeRoleId", "Required.")]
    | some reference =>
      match roleFor roles reference with
      | none => [(pre ++ ".placeRoleId", "Choose a valid place role.")]
      | some (id, role) =>
        if role.active = false ∧ storedRoleId ≠ some id then [(pre ++ ".placeRoleId", "This place role is inactive.")]
        else []
  roleErrors ++ if row.place.text.get?.isNone then [(pre ++ ".place", "Required.")] else []

def resolveRouteStop (roles : Table PlaceRole) (known : List (ℕ × Option ℕ)) (row : RouteStopPayload) : RouteStop :=
  let role := row.roleReference.bind (roleFor roles)
  { rowId := row.rowId known
    placeRoleId := role.map Prod.fst
    placeRole := clip 32 ((role.map fun r => r.2.name).getD (row.placeRole.text.get?.getD ""))
    place := clip 500 (row.place.text.get?.getD "")
    plannedAt := row.planned.get?
    actualAt := row.actual.get?
    notes := row.notes.text.get? }

/-- `rows or []`, without the rows that were not started. -/
def startedRows : Field (List RouteStopPayload) → List RouteStopPayload
  | .value rows => rows.filter RouteStopPayload.started
  | _ => []

def resolveRouteStops (roles : Table PlaceRole) (known : List (ℕ × Option ℕ)) (rows : Field (List RouteStopPayload))
    (field : String := "places") : Result (List RouteStop) := do
  let supplied := startedRows rows
  validateLineItems routeStopSchema supplied field
  let errors := (supplied.zipIdx.map fun (row, index) => routeStopErrors roles known field index row).flatten
  check (errors = []) (.invalid "Please correct the route stops." errors)
  return supplied.map (resolveRouteStop roles known)

/-! ## Writing -/

/-- The stored rows while the stops are written, and the ids that were named and kept so far. -/
structure RouteWrite where
  places : Table RoutePlace
  used : List ℕ
  kept : List ℕ

/-- The columns of a stop. Only a service order has the actual time. -/
def RouteStop.applyTo (stop : RouteStop) (hasActual : Bool) (index : ℕ) (row : RoutePlace) : RoutePlace :=
  { row with
    placeRoleId := stop.placeRoleId
    placeRole := stop.placeRole
    sequenceNo := index + 1
    plannedAt := stop.plannedAt
    actualAt := if hasActual then stop.actualAt else row.actualAt
    freeText := some stop.place
    notes := stop.notes }

/-- A row of the parent before its columns are set. -/
def RoutePlace.new (parentId : ℕ) : RoutePlace := ⟨parentId, none, "", 1, none, none, none, none⟩

/-- One turn of the loop: the stored row on its first mention, else a new one. -/
def writeStop (hasActual : Bool) (parentId : ℕ) (w : RouteWrite) (stop : RouteStop × ℕ) : RouteWrite :=
  match stop.1.rowId.filter fun id => id ∉ w.used with
  | some id =>
    { places := w.places.modify id (stop.1.applyTo hasActual stop.2), used := id :: w.used, kept := id :: w.kept }
  | none =>
    { places := w.places.insert (stop.1.applyTo hasActual stop.2 (.new parentId))
      used := stop.1.rowId.toList ++ w.used
      kept := w.kept }

/-- Every stored row on a negative number of its own, out of the way of the final order. -/
def parkRow (places : Table RoutePlace) (row : ℕ × RoutePlace) : Table RoutePlace :=
  places.modify row.1 fun p => { p with sequenceNo := -(row.1 : ℤ) }

def saveRouteStops (roles : Table PlaceRole) (hasActual : Bool) (places : Table RoutePlace) (parentId : ℕ)
    (rows : Field (List RouteStopPayload)) : Result (Table RoutePlace) := do
  let existing := places.select fun p => p.parentId == parentId
  let stops ← resolveRouteStops roles (existing.map fun r => (r.1, r.2.placeRoleId)) rows
  let parked := existing.foldl parkRow places
  let written := stops.zipIdx.foldl (writeStop hasActual parentId) ⟨parked, [], []⟩
  return written.places.erase fun id _ => existing.any (fun r => r.1 == id) && id ∉ written.kept

/-! ## Other parents -/

/-- What is written so far left the rows of the other parents alone, and the parent's stored rows in place. -/
structure Confined (places : Table RoutePlace) (parentId : ℕ) (t : Table RoutePlace) : Prop where
  others : ∀ other, other ≠ parentId →
    (t.select fun p => p.parentId == other) = places.select fun p => p.parentId == other
  own : ∀ id row, places.get? id = some row → row.parentId = parentId →
    ∃ row', t.get? id = some row' ∧ row'.parentId = parentId

/-- The id is one of the parent's stored rows. -/
def StoredUnder (places : Table RoutePlace) (parentId id : ℕ) : Prop :=
  ∃ row, places.get? id = some row ∧ row.parentId = parentId

section
variable {places t : Table RoutePlace} {parentId id : ℕ}

theorem Confined.refl (places : Table RoutePlace) (parentId : ℕ) : Confined places parentId places where
  others _ _ := rfl
  own _ row hrow hparent := ⟨row, hrow, hparent⟩

theorem Confined.parent_eq (h : Confined places parentId t) (hid : StoredUnder places parentId id) {row : RoutePlace}
    (hrow : t.get? id = some row) : row.parentId = parentId := by
  obtain ⟨old, hold, hparent⟩ := hid
  obtain ⟨row', hrow', hparent'⟩ := h.own id old hold hparent
  rw [hrow, Option.some.injEq] at hrow'
  rwa [hrow']

theorem Confined.modify (h : Confined places parentId t) (hid : StoredUnder places parentId id)
    {f : RoutePlace → RoutePlace} (hf : ∀ row, (f row).parentId = row.parentId) :
    Confined places parentId (t.modify id f) where
  others other hne := by
    rw [← h.others other hne]
    refine Table.select_modify_of_not fun row hrow => ?_
    simp [hf, h.parent_eq hid hrow, hne.symm]
  own i row hrow hparent := by
    obtain ⟨row', hrow', hparent'⟩ := h.own i row hrow hparent
    rw [Table.get?_modify, hrow']
    split
    · exact ⟨f row', rfl, (hf row').trans hparent'⟩
    · exact ⟨row', rfl, hparent'⟩

theorem Confined.insert (h : Confined places parentId t) {row : RoutePlace} (hrow : row.parentId = parentId) :
    Confined places parentId (t.insert row) where
  others other hne := by
    rw [← h.others other hne]
    exact Table.select_insert_of_not t (by simp [hrow, hne.symm])
  own i old hold hparent := by
    obtain ⟨row', hrow', hparent'⟩ := h.own i old hold hparent
    exact ⟨row', Table.get?_insert_of_some hrow', hparent'⟩

theorem Confined.park (h : Confined places parentId t) {rows : List (ℕ × RoutePlace)}
    (hrows : ∀ r ∈ rows, StoredUnder places parentId r.1) : Confined places parentId (rows.foldl parkRow t) := by
  induction rows generalizing t with
  | nil => exact h
  | cons r rows ih =>
    rw [List.forall_mem_cons] at hrows
    exact ih (h.modify hrows.1 fun _ => rfl) hrows.2

theorem Confined.writeStops {hasActual : Bool} {w : RouteWrite} (h : Confined places parentId w.places)
    {stops : List (RouteStop × ℕ)} (hstops : ∀ s ∈ stops, ∀ id ∈ s.1.rowId, StoredUnder places parentId id) :
    Confined places parentId (stops.foldl (writeStop hasActual parentId) w).places := by
  induction stops generalizing w with
  | nil => exact h
  | cons stop stops ih =>
    rw [List.forall_mem_cons] at hstops
    refine ih ?_ hstops.2
    unfold writeStop
    split
    · next id hid =>
      obtain ⟨hmention, -⟩ := Option.filter_eq_some_iff.1 hid
      exact h.modify (hstops.1 id hmention) fun _ => rfl
    · exact h.insert rfl

end

theorem storedUnder_of_mem {places : Table RoutePlace} {parentId : ℕ} {r : ℕ × RoutePlace}
    (h : r ∈ places.select fun p => p.parentId == parentId) : StoredUnder places parentId r.1 := by
  obtain ⟨hget, hparent⟩ := Table.mem_select.1 h
  exact ⟨r.2, hget, beq_iff_eq.1 hparent⟩

/-- A stop names stored rows of its own parent only. -/
theorem resolveRouteStops_rowId {roles : Table PlaceRole} {known : List (ℕ × Option ℕ)}
    {rows : Field (List RouteStopPayload)} {stops : List RouteStop} (h : resolveRouteStops roles known rows = .ok stops) :
    ∀ stop ∈ stops, ∀ id ∈ stop.rowId, id ∈ known.map Prod.fst := by
  simp only [resolveRouteStops, bind_eq_ok, check_eq_ok, pure_eq_ok] at h
  obtain ⟨_, -, _, -, rfl⟩ := h
  intro stop hstop id hid
  obtain ⟨row, -, rfl⟩ := List.mem_map.1 hstop
  obtain ⟨-, hknown⟩ := Option.filter_eq_some_iff.1 hid
  obtain ⟨k, hk, hkid⟩ := List.any_eq_true.1 hknown
  exact beq_iff_eq.1 hkid ▸ List.mem_map_of_mem hk

/-- **The route of a parent is its own**: a save leaves the rows of every other parent as they were. -/
theorem saveRouteStops_others {roles : Table PlaceRole} {hasActual : Bool} {places places' : Table RoutePlace}
    {parentId other : ℕ} {rows : Field (List RouteStopPayload)} (hne : other ≠ parentId)
    (h : saveRouteStops roles hasActual places parentId rows = .ok places') :
    (places'.select fun p => p.parentId == other) = places.select fun p => p.parentId == other := by
  simp only [saveRouteStops, bind_eq_ok, pure_eq_ok] at h
  obtain ⟨stops, hstops, rfl⟩ := h
  have hexisting : ∀ r ∈ places.select fun p => p.parentId == parentId, StoredUnder places parentId r.1 :=
    fun r hr => storedUnder_of_mem hr
  have hparked := (Confined.refl places parentId).park hexisting
  have hwritten : Confined places parentId (stops.zipIdx.foldl (writeStop hasActual parentId)
      ⟨(places.select fun p => p.parentId == parentId).foldl parkRow places, [], []⟩).places := by
    refine Confined.writeStops hparked fun stop hstop id hid => ?_
    have hmem := resolveRouteStops_rowId hstops stop.1 (List.fst_mem_of_mem_zipIdx hstop) id hid
    simp only [List.map_map, List.mem_map, Function.comp_apply] at hmem
    obtain ⟨r, hr, rfl⟩ := hmem
    exact hexisting r hr
  rw [← hwritten.others other hne]
  refine Table.select_erase_of_not fun id row hrow hother => ?_
  rw [Bool.and_eq_false_iff]
  left
  rw [List.any_eq_false]
  intro r hr hid
  have hparent := hwritten.parent_eq (beq_iff_eq.1 hid ▸ hexisting r hr) hrow
  exact hne ((beq_iff_eq.1 hother).symm.trans hparent)

end LcsSystem
