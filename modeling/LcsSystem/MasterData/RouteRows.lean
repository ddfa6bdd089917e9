import LcsSystem.MasterData.RouteWrites
import LcsSystem.Settings.AppConfig
import LcsSystem.Core.Cache
import LcsSystem.Lib.Positions

/-!
# Route rows as they are sent

`route_row_started` and `ROUTE_STOP_SCHEMA` (`src/backend/app/modules/master_data/route_stops.py:31-57`) read a row by
its keys, each with its own list of spellings, and `resolve_route_stops` numbers its errors after the rows that were not
started are gone.

| here            | there                                                                      |
|-----------------|----------------------------------------------------------------------------|
| `spellings`     | a key of `ROUTE_STOP_SCHEMA` with its aliases                              |
| `sourceValue`   | the value under `source_key` in `RecordSchema.validate`                    |
| `isBlankValue`  | `is_blank` (`core/validation.py:183`)                                      |
| `readRow`       | a row with its values read, and whether it is started                      |

`_datetime` of a text is a parameter. A JSON number that is whole reads as an integer.
-/

namespace LcsSystem
open Relational Checks

/-! ## Keys -/

inductive RouteKey
  | placeRoleId
  | placeRole
  | place
  | planned
  | actual
  | notes
  deriving DecidableEq, Repr

def spellings : RouteKey → List String
  | .placeRoleId => ["placeRoleId", "place_role_id"]
  | .placeRole => ["placeRole", "place_role"]
  | .place => ["place", "freeText", "free_text"]
  | .planned => ["planned", "plannedAt", "planned_at", "plannedActual", "planned_actual"]
  | .actual => ["actual", "actualAt", "actual_at"]
  | .notes => ["notes"]

/-- `_ROUTE_ROW_KEYS`. -/
def routeRowKeys : List String :=
  ["placeRoleId", "placeRole", "place", "freeText", "planned", "plannedActual", "actual", "notes"]

abbrev RouteRow := List (String × Json)

def rowStarted (row : RouteRow) : Bool := routeRowKeys.any fun key => (row.lookup key).any fun v => !isBlank v

/-- The first spelling that the row has. -/
def sourceValue (row : RouteRow) (key : RouteKey) : Option Json := (spellings key).findSome? fun name => row.lookup name

def isBlankValue : Json → Bool
  | .null => true
  | .str s => strip s == ""
  | .list items => items.isEmpty
  | .dict entries => entries.isEmpty
  | .bool _ | .num _ => false

/-! ## Values -/

/-- `_string`. -/
def readText : Json → Field String
  | .str s => if strip s = "" then .blank else .value s
  | v => if isBlankValue v then .blank else .malformed

/-- `_reference`: a positive whole number, or a text. -/
def readReference : Json → Field Reference
  | .str s => if strip s = "" then .blank else .value (.text s)
  | .num q => if q.den = 1 ∧ 0 < q.num then .value (.id q.num.toNat) else .malformed
  | v => if isBlankValue v then .blank else .malformed

/-- `_datetime`. -/
def readDateTime (parse : String → Option Timestamp) : Json → Field Timestamp
  | .str s =>
    if strip s = "" then .blank
    else match parse (strip s) with
      | some t => .value t
      | none => .malformed
  | v => if isBlankValue v then .blank else .malformed

/-- The value of a key, if the row has it. -/
def fieldOf {α : Type} (read : Json → Field α) (value : Option Json) : Field α := (value.map read).getD .absent

def readRow (parse : String → Option Timestamp) (row : RouteRow) : RouteStopPayload where
  started := rowStarted row
  id := fieldOf readReference (row.lookup "id")
  placeRoleId := fieldOf readReference (sourceValue row .placeRoleId)
  placeRole := fieldOf readText (sourceValue row .placeRole)
  place := fieldOf readText (sourceValue row .place)
  planned := fieldOf (readDateTime parse) (sourceValue row .planned)
  actual := fieldOf (readDateTime parse) (sourceValue row .actual)
  notes := fieldOf readText (sourceValue row .notes)

/-- `save_route_stops` of a list of rows. -/
def saveRouteRows (parse : String → Option Timestamp) (roles : Table PlaceRole) (hasActual : Bool)
    (places : Table RoutePlace) (parentId : ℕ) (rows : List RouteRow) : Result (Table RoutePlace) :=
  saveRouteStops roles hasActual places parentId (.value (rows.map (readRow parse)))

/-! ## What a row carries -/

/-- The row has this value under a spelling of the key. -/
def Carries (row : RouteRow) (key : RouteKey) (v : Json) : Prop :=
  (∃ name ∈ spellings key, row.lookup name = some v) ∧ isBlankValue v = false

/-- What a value stands for in a stop. -/
inductive StopValue
  | role (id : ℕ)
  | text (s : String)
  | time (t : Timestamp)
  deriving DecidableEq

/-- The meaning of a value under a key. -/
def meaning (parse : String → Option Timestamp) (roles : Table PlaceRole) : RouteKey → Json → Option StopValue
  | .placeRoleId, v => ((readReference v).reference?.bind (roleFor roles)).map fun r => .role r.1
  | .placeRole, v => ((readText v).text.get?.bind fun s => roleFor roles (.text s)).map fun r => .role r.1
  | .place, v | .notes, v => (readText v).text.get?.map .text
  | .planned, v | .actual, v => (readDateTime parse v).get?.map .time

/-- The column of the key. -/
def RoutePlace.column (stop : RoutePlace) : RouteKey → Option StopValue
  | .placeRoleId | .placeRole => stop.placeRoleId.map .role
  | .place => stop.freeText.map .text
  | .planned => stop.plannedAt.map .time
  | .actual => stop.actualAt.map .time
  | .notes => stop.notes.map .text

/-- The table has a column for the key. -/
def hasColumn (hasActual : Bool) (key : RouteKey) : Prop := key = .actual → hasActual = true

/-- Each value that the row carries is in its column. -/
def HoldsRow (parse : String → Option Timestamp) (roles : Table PlaceRole) (hasActual : Bool) (row : RouteRow)
    (stop : RoutePlace) : Prop :=
  ∀ key v, Carries row key v → hasColumn hasActual key →
    meaning parse roles key v ≠ none ∧ stop.column key = meaning parse roles key v

/-- What the validated row has for the key. -/
def rowMeaning (parse : String → Option Timestamp) (roles : Table PlaceRole) (row : RouteRow) :
    RouteKey → Option StopValue
  | .placeRoleId | .placeRole => ((readRow parse row).roleReference.bind (roleFor roles)).map fun r => .role r.1
  | .place => (readRow parse row).place.text.get?.map .text
  | .planned => (readRow parse row).planned.get?.map .time
  | .actual => (readRow parse row).actual.get?.map .time
  | .notes => (readRow parse row).notes.text.get?.map .text

def carries (row : RouteRow) : Bool :=
  [RouteKey.placeRoleId, .placeRole, .place, .planned, .actual, .notes].any fun key =>
    (spellings key).any fun name => (row.lookup name).any fun v => !isBlankValue v

theorem carries_iff {row : RouteRow} : carries row = true ↔ ∃ key v, Carries row key v := by
  simp only [carries, List.any_eq_true, Option.any_eq_true, Bool.not_eq_true', Carries]
  constructor
  · rintro ⟨key, -, name, hname, v, hv, hblank⟩
    exact ⟨key, v, ⟨name, hname, hv⟩, hblank⟩
  · rintro ⟨key, v, ⟨name, hname, hv⟩, hblank⟩
    exact ⟨key, by cases key <;> decide, name, hname, v, hv, hblank⟩

theorem carries_of_started {row : RouteRow} (h : rowStarted row = true) : carries row = true := by
  have hkeys : ∀ name ∈ routeRowKeys, ∃ key, name ∈ spellings key := by
    have : ∀ name ∈ routeRowKeys, ∃ key ∈ [RouteKey.placeRoleId, .placeRole, .place, .planned, .actual, .notes],
      name ∈ spellings key := by decide
    intro name hname
    obtain ⟨key, -, hkey⟩ := this name hname
    exact ⟨key, hkey⟩
  simp only [rowStarted, List.any_eq_true, Option.any_eq_true, Bool.not_eq_true'] at h
  obtain ⟨name, hname, v, hv, hentered⟩ := h
  obtain ⟨key, hkey⟩ := hkeys name hname
  refine carries_iff.2 ⟨key, v, ⟨name, hkey, hv⟩, ?_⟩
  cases v <;> simp_all [isBlank, isBlankValue]

/-! ## Errors under their index -/

def Error.fieldErrors : Error → List (String × String)
  | .validationFailed _ fieldErrors _ | .conflict _ _ fieldErrors => fieldErrors
  | _ => []

/-- An error of the row with this index. -/
def Addressed (e : Error) (index : ℕ) : Prop :=
  ∃ key message, ("places." ++ toString index ++ "." ++ key, message) ∈ e.fieldErrors

theorem takeWhile_digits (n : ℕ) (rest : List Char) :
    ((toString n).toList ++ ('.' :: rest)).takeWhile Char.isDigit = (toString n).toList := by
  have hall : ∀ c ∈ (toString n).toList, c.isDigit = true := by
    rw [show (toString n).toList = Nat.toDigits 10 n from Nat.toList_repr]
    exact fun c hc => Nat.isDigit_of_mem_toDigits (by decide) (by decide) hc
  rw [List.takeWhile_append_of_pos hall, List.takeWhile_cons_of_neg (by decide), List.append_nil]

theorem index_of_path {i j : ℕ} {k l : String}
    (h : "places." ++ toString i ++ "." ++ k = "places." ++ toString j ++ "." ++ l) : i = j := by
  have hlist := congrArg String.toList h
  simp only [String.toList_append, List.append_assoc] at hlist
  have hrest := List.append_cancel_left hlist
  have hdigits := congrArg (List.takeWhile Char.isDigit) hrest
  rw [show ".".toList = ['.'] from rfl, List.singleton_append, List.singleton_append, takeWhile_digits,
    takeWhile_digits] at hdigits
  exact toString_nat_injective (String.toList_inj.1 hdigits)

/-- Errors that are collected row by row. -/
theorem addressed_iff {α : Type} {supplied : List α} {errors : ℕ → α → List (String × String)}
    (hpath : ∀ i a, ∀ x ∈ errors i a, ∃ key, x.1 = "places." ++ toString i ++ "." ++ key) {index : ℕ} :
    (∃ key message, ("places." ++ toString index ++ "." ++ key, message) ∈
        (supplied.zipIdx.map fun x => errors x.2 x.1).flatten) ↔
      ∃ a, supplied[index]? = some a ∧ errors index a ≠ [] := by
  constructor
  · rintro ⟨key, message, hmem⟩
    obtain ⟨l, hl, hx⟩ := List.mem_flatten.1 hmem
    obtain ⟨⟨a, i⟩, ha, rfl⟩ := List.mem_map.1 hl
    obtain ⟨key', hkey⟩ := hpath i a _ hx
    obtain rfl := index_of_path hkey
    exact ⟨a, List.mk_mem_zipIdx_iff_getElem?.1 ha, List.ne_nil_of_mem hx⟩
  · rintro ⟨a, ha, hne⟩
    obtain ⟨x, hx⟩ := List.exists_mem_of_ne_nil _ hne
    obtain ⟨key, hkey⟩ := hpath index a x hx
    refine ⟨key, x.2, List.mem_flatten.2 ⟨_, List.mem_map.2 ⟨(a, index), ?_, rfl⟩, ?_⟩⟩
    · exact List.mk_mem_zipIdx_iff_getElem?.2 ha
    · rw [← hkey]
      exact hx

theorem routeStopErrors_path {roles : Table PlaceRole} {known : List (ℕ × Option ℕ)} (i : ℕ) (row : RouteStopPayload) :
    ∀ x ∈ routeStopErrors roles known "places" i row, ∃ key, x.1 = "places." ++ toString i ++ "." ++ key := by
  intro x hx
  rcases List.mem_append.1 hx with hx | hx
  · refine ⟨"placeRoleId", ?_⟩
    split at hx
    · simp_all [String.append_assoc]
    · split at hx
      · simp_all [String.append_assoc]
      · split at hx
        · simp_all [String.append_assoc]
        · cases hx
  · refine ⟨"place", ?_⟩
    split at hx
    · simp_all [String.append_assoc]
    · cases hx

/-! ## What the save refuses -/

/-- Some row is refused by the schema, before the roles and places are looked at. -/
def SchemaRefuses (parse : String → Option Timestamp) (rows : List RouteRow) : Prop :=
  ∃ row ∈ rows, rowStarted row = true ∧ routeStopSchema (readRow parse row) ≠ []

instance (parse : String → Option Timestamp) (rows : List RouteRow) : Decidable (SchemaRefuses parse rows) :=
  inferInstanceAs (Decidable (∃ row ∈ rows, _))

/-- The errors of a row in the stage that decides. -/
def stageErrors (parse : String → Option Timestamp) (roles : Table PlaceRole) (known : List (ℕ × Option ℕ))
    (rows : List RouteRow) (index : ℕ) (row : RouteStopPayload) : List (String × String) :=
  if SchemaRefuses parse rows then
    (rowItems index (routeStopSchema row) "places").map fun i => (i.field, i.message)
  else routeStopErrors roles known "places" index row

/-- The row has an error there. -/
def Faulty (parse : String → Option Timestamp) (roles : Table PlaceRole) (known : List (ℕ × Option ℕ))
    (rows : List RouteRow) (row : RouteRow) : Prop := stageErrors parse roles known rows 0 (readRow parse row) ≠ []

instance (parse : String → Option Timestamp) (roles : Table PlaceRole) (known : List (ℕ × Option ℕ))
    (rows : List RouteRow) (row : RouteRow) : Decidable (Faulty parse roles known rows row) :=
  inferInstanceAs (Decidable (_ ≠ _))

/-- The rows that are validated. -/
def suppliedRows (parse : String → Option Timestamp) (rows : List RouteRow) : List RouteStopPayload :=
  (rows.filter rowStarted).map (readRow parse)

section
variable {parse : String → Option Timestamp} {roles : Table PlaceRole} {known : List (ℕ × Option ℕ)}
  {rows : List RouteRow} {row : RouteRow} {e : Error}

theorem startedRows_readRow : startedRows (.value (rows.map (readRow parse))) = suppliedRows parse rows := by
  rw [startedRows, List.filter_map, suppliedRows]
  rfl

/-- Whether a row has errors does not depend on where it stands. -/
theorem stageErrors_eq_nil {index : ℕ} {payload : RouteStopPayload} :
    stageErrors parse roles known rows index payload = [] ↔ stageErrors parse roles known rows 0 payload = [] := by
  unfold stageErrors
  split
  · rw [List.map_eq_nil_iff, List.map_eq_nil_iff, rowItems, rowItems, List.map_eq_nil_iff, List.map_eq_nil_iff]
  · rw [routeStopErrors_eq_nil, routeStopErrors_eq_nil]

theorem stageErrors_path (i : ℕ) (payload : RouteStopPayload) :
    ∀ x ∈ stageErrors parse roles known rows i payload, ∃ key, x.1 = "places." ++ toString i ++ "." ++ key := by
  intro x hx
  unfold stageErrors at hx
  split at hx
  · obtain ⟨item, hitem, rfl⟩ := List.mem_map.1 hx
    obtain ⟨item', -, rfl⟩ := List.mem_map.1 hitem
    exact ⟨item'.field, rfl⟩
  · exact routeStopErrors_path i payload x hx

/-- The errors of the second stage. -/
def stopErrors (parse : String → Option Timestamp) (roles : Table PlaceRole) (known : List (ℕ × Option ℕ))
    (rows : List RouteRow) : List (String × String) :=
  ((suppliedRows parse rows).zipIdx.map fun x => routeStopErrors roles known "places" x.2 x.1).flatten

theorem resolveRouteStops_of_valid (h : ∀ payload ∈ suppliedRows parse rows, routeStopSchema payload = []) :
    resolveRouteStops roles known (.value (rows.map (readRow parse))) =
      if stopErrors parse roles known rows = [] then .ok ((suppliedRows parse rows).map (resolveRouteStop roles known))
      else .error (.invalid "Please correct the route stops." (stopErrors parse roles known rows)) := by
  have hvalid : (validateLineItems routeStopSchema (suppliedRows parse rows) "places" : Result PUnit.{1}) = .ok ⟨⟩ :=
    validateLineItems_eq_ok.2 h
  rw [resolveRouteStops, startedRows_readRow, hvalid, ok_bind]
  change (check (stopErrors parse roles known rows = []) _ >>= fun _ => _) = _
  unfold check
  split <;> rfl

theorem stopErrors_eq_nil : stopErrors parse roles known rows = [] ↔
    ∀ payload ∈ suppliedRows parse rows, StopResolved roles known payload :=
  flatten_zipIdx_eq_nil (f := fun row index => routeStopErrors roles known "places" index row)
    (fun _ _ => routeStopErrors_eq_nil) _

/-- Every started row passes, or the errors of all of them are raised. -/
theorem resolveRouteStops_cases (parse : String → Option Timestamp) (roles : Table PlaceRole)
    (known : List (ℕ × Option ℕ)) (rows : List RouteRow) :
    ((∀ row ∈ rows, rowStarted row = true → ¬Faulty parse roles known rows row) ∧
      ∃ stops, resolveRouteStops roles known (.value (rows.map (readRow parse))) = .ok stops) ∨
    ((∃ row ∈ rows, rowStarted row = true ∧ Faulty parse roles known rows row) ∧
      ∃ e, resolveRouteStops roles known (.value (rows.map (readRow parse))) = .error e ∧
        e.fieldErrors = ((suppliedRows parse rows).zipIdx.map fun x => stageErrors parse roles known rows x.2 x.1).flatten) := by
  have hstarted : ∀ P : RouteStopPayload → Prop, (∀ payload ∈ suppliedRows parse rows, P payload) ↔
      ∀ row ∈ rows, rowStarted row = true → P (readRow parse row) := by
    intro P
    rw [suppliedRows, List.forall_mem_map]
    simp only [List.mem_filter, and_imp]
  by_cases hschema : SchemaRefuses parse rows
  · right
    obtain ⟨row, hrow, hrowStarted, hne⟩ := hschema
    refine ⟨⟨row, hrow, hrowStarted, ?_⟩, ?_⟩
    · rw [Faulty, stageErrors, if_pos ⟨row, hrow, hrowStarted, hne⟩]
      simpa [rowItems] using hne
    · rw [resolveRouteStops, startedRows_readRow, validateLineItems, check, if_neg]
      · refine ⟨_, rfl, ?_⟩
        simp only [Error.fieldErrors, stageErrors, if_pos (show SchemaRefuses parse rows from ⟨row, hrow, hrowStarted, hne⟩),
          List.map_flatten, List.map_map]
        rfl
      · rw [flatten_zipIdx_eq_nil (f := fun line index => rowItems index (routeStopSchema line) "places")
          (P := fun line => routeStopSchema line = []) (fun _ _ => List.map_eq_nil_iff), hstarted]
        exact fun hall => hne (hall row hrow hrowStarted)
  · have hpasses : ∀ payload ∈ suppliedRows parse rows, routeStopSchema payload = [] := by
      rw [hstarted]
      intro row hrow hrowStarted
      by_contra hne
      exact hschema ⟨row, hrow, hrowStarted, hne⟩
    have hfaulty : ∀ row, Faulty parse roles known rows row ↔ ¬StopResolved roles known (readRow parse row) := by
      intro row
      rw [Faulty, stageErrors, if_neg hschema, Ne, routeStopErrors_eq_nil]
    rw [resolveRouteStops_of_valid hpasses]
    by_cases hresolved : ∀ row ∈ rows, rowStarted row = true → StopResolved roles known (readRow parse row)
    · left
      refine ⟨fun row hrow hrowStarted => by simpa [hfaulty] using hresolved row hrow hrowStarted, ?_⟩
      rw [if_pos (stopErrors_eq_nil.2 ((hstarted _).2 hresolved))]
      exact ⟨_, rfl⟩
    · right
      have herrors := mt stopErrors_eq_nil.1 (mt (hstarted _).1 hresolved)
      push Not at hresolved
      obtain ⟨row, hrow, hrowStarted, hnot⟩ := hresolved
      refine ⟨⟨row, hrow, hrowStarted, (hfaulty row).2 hnot⟩, ?_⟩
      rw [if_neg herrors]
      refine ⟨_, rfl, ?_⟩
      simp only [Error.fieldErrors, Error.invalid, stageErrors, if_neg hschema, stopErrors]

/-! ## Accepted routes -/

variable {hasActual : Bool} {places places' : Table RoutePlace} {parentId : ℕ}

/-- The stop of the parent that has the number after `k`. -/
def StopAt (places' : Table RoutePlace) (parentId k id : ℕ) (stop : RoutePlace) : Prop :=
  places'.get? id = some stop ∧ stop.parentId = parentId ∧ stop.sequenceNo = (k : ℤ) + 1

theorem stopAt_iff {supplied : List RouteStopPayload} {ids : List ℕ}
    (h : RouteSaved roles hasActual places parentId supplied ids places') {k id : ℕ} {stop : RoutePlace} :
    StopAt places' parentId k id stop ↔ ∃ payload, supplied[k]? = some payload ∧ ids[k]? = some id ∧
      (id, stop) = placedRow hasActual places parentId (resolveRouteStop roles (knownRoles places parentId) payload, k) id := by
  have hmem : places'.get? id = some stop ∧ stop.parentId = parentId ↔
      (id, stop) ∈ placedRows hasActual places parentId
        (supplied.map (resolveRouteStop roles (knownRoles places parentId))) ids := by
    rw [← h.route, List.mem_insertionSort, Table.mem_select, beq_iff_eq]
  constructor
  · rintro ⟨hget, hparent, hseq⟩
    obtain ⟨j, hj⟩ := List.mem_iff_getElem?.1 (hmem.1 ⟨hget, hparent⟩)
    obtain ⟨s, i, hs, hi, heq⟩ := getElem?_placedRows.1 hj
    obtain rfl : id = i := congrArg Prod.fst heq
    have hnumber : stop.sequenceNo = (j : ℤ) + 1 := by
      rw [show stop = (placedRow hasActual places parentId (s, j) id).2 from congrArg Prod.snd heq]
      rfl
    obtain rfl : j = k := by omega
    rw [List.getElem?_map, Option.map_eq_some_iff] at hs
    obtain ⟨payload, hpayload, rfl⟩ := hs
    exact ⟨payload, hpayload, hi, heq⟩
  · rintro ⟨payload, hpayload, hi, heq⟩
    have hs : (supplied.map (resolveRouteStop roles (knownRoles places parentId)))[k]? =
        some (resolveRouteStop roles (knownRoles places parentId) payload) := by
      rw [List.getElem?_map, hpayload, Option.map_some]
    obtain ⟨hget, hparent⟩ := hmem.2 (List.mem_iff_getElem?.2 ⟨k, getElem?_placedRows.2 ⟨_, _, hs, hi, heq⟩⟩)
    refine ⟨hget, hparent, ?_⟩
    rw [show stop = (placedRow hasActual places parentId
      (resolveRouteStop roles (knownRoles places parentId) payload, k) id).2 from congrArg Prod.snd heq]
    rfl

/-- The columns of an accepted row are what its values mean. -/
theorem column_placed {id k : ℕ} (hschema : routeStopSchema (readRow parse row) = [])
    (hresolved : StopResolved roles known (readRow parse row)) (key : RouteKey) (hkey : hasColumn hasActual key) :
    (placedRow hasActual places parentId (resolveRouteStop roles known (readRow parse row), k) id).2.column key =
      rowMeaning parse roles row key := by
  cases key with
  | placeRoleId | placeRole =>
    simp only [placedRow, RoutePlace.column, RouteStop.applyTo, resolveRouteStop, rowMeaning, Option.map_map]
    rfl
  | place =>
    obtain ⟨text, htext⟩ := hresolved.place
    simp only [routeStopSchema, List.append_eq_nil_iff] at hschema
    have hlength := TextSpec.length_le hschema.1.1.1.2 text htext
    simp only [placedRow, RoutePlace.column, RouteStop.applyTo, resolveRouteStop, rowMeaning, htext, Option.getD_some,
      clip_of_le hlength, Option.map_some]
  | planned => rfl
  | actual =>
    have hhas : hasActual = true := hkey rfl
    subst hhas
    rfl
  | notes => rfl

/-! ## The whole list -/

/-- Nothing that was entered is lost. In an accepted route, each row that carries a value is the stop that has its place
among these rows, and holds its values; in a refused one, each of them that has an error is addressed by its index. -/
structure RowsAccounted (parse : String → Option Timestamp) (roles : Table PlaceRole) (hasActual : Bool)
    (places : Table RoutePlace) (parentId : ℕ) (rows : List RouteRow) : Prop where
  stored : ∀ places', saveRouteRows parse roles hasActual places parentId rows = .ok places' →
    ∀ n row, rows[n]? = some row → carries row = true →
      ∃ id stop, StopAt places' parentId ((rows.take n).countP carries) id stop ∧ HoldsRow parse roles hasActual row stop
  reported : ∀ e, saveRouteRows parse roles hasActual places parentId rows = .error e →
    ∀ n row, rows[n]? = some row → carries row = true → Faulty parse roles (knownRoles places parentId) rows row →
      Addressed e n

/-- The row is started, and each value that it carries means the same as the one that is read for its key. -/
def ReadInFull (parse : String → Option Timestamp) (roles : Table PlaceRole) (hasActual : Bool) (row : RouteRow) : Prop :=
  rowStarted row = true ∧ ∀ key v, Carries row key v → hasColumn hasActual key →
    meaning parse roles key v ≠ none ∧ rowMeaning parse roles row key = meaning parse roles key v

/-- Where all started rows pass, every row that carries a value is read in full; where one does not, every faulty row
and all rows before it are started. -/
structure RowsRead (parse : String → Option Timestamp) (roles : Table PlaceRole) (hasActual : Bool)
    (known : List (ℕ × Option ℕ)) (rows : List RouteRow) : Prop where
  accepted : (∀ row ∈ rows, rowStarted row = true → ¬Faulty parse roles known rows row) →
    ∀ row ∈ rows, carries row = true → ReadInFull parse roles hasActual row
  refused : (∃ row ∈ rows, rowStarted row = true ∧ Faulty parse roles known rows row) →
    ∀ n row, rows[n]? = some row → carries row = true → Faulty parse roles known rows row →
      ∀ before ∈ rows.take (n + 1), rowStarted before = true

/-! ## When nothing is lost -/

theorem saveRouteRows_cases (parse : String → Option Timestamp) (roles : Table PlaceRole) (hasActual : Bool)
    (places : Table RoutePlace) (parentId : ℕ) (rows : List RouteRow) :
    ((∀ row ∈ rows, rowStarted row = true → ¬Faulty parse roles (knownRoles places parentId) rows row) ∧
      ∃ places', saveRouteRows parse roles hasActual places parentId rows = .ok places') ∨
    ((∃ row ∈ rows, rowStarted row = true ∧ Faulty parse roles (knownRoles places parentId) rows row) ∧
      ∃ e, saveRouteRows parse roles hasActual places parentId rows = .error e ∧ e.fieldErrors =
        ((suppliedRows parse rows).zipIdx.map fun x =>
          stageErrors parse roles (knownRoles places parentId) rows x.2 x.1).flatten) := by
  rcases resolveRouteStops_cases parse roles (knownRoles places parentId) rows with
    ⟨hpass, stops, hstops⟩ | ⟨hfail, e, he, herrors⟩
  · refine .inl ⟨hpass, ?_⟩
    simp only [knownRoles] at hstops
    simp only [saveRouteRows, saveRouteStops, hstops, ok_bind]
    exact ⟨_, rfl⟩
  · refine .inr ⟨hfail, e, ?_, herrors⟩
    simp only [knownRoles] at he
    simp only [saveRouteRows, saveRouteStops, he]
    rfl

/-- The place of a started row among those that are validated. -/
theorem suppliedRows_getElem? {n : ℕ} (h : rows[n]? = some row) (hstarted : rowStarted row = true) :
    (suppliedRows parse rows)[(rows.take n).countP rowStarted]? = some (readRow parse row) := by
  rw [suppliedRows, List.getElem?_map, Positions.getElem?_filter h hstarted, Option.map_some]

theorem stored_iff (h : saveRouteRows parse roles hasActual places parentId rows = .ok places') :
    (∀ n row, rows[n]? = some row → carries row = true → ∃ id stop,
        StopAt places' parentId ((rows.take n).countP carries) id stop ∧ HoldsRow parse roles hasActual row stop) ↔
      ∀ row ∈ rows, carries row = true → ReadInFull parse roles hasActual row := by
  obtain ⟨ids, hsaved⟩ := routeSaved_of_ok h
  rw [startedRows_readRow] at hsaved
  have hvalid : ∀ row ∈ rows, rowStarted row = true →
      routeStopSchema (readRow parse row) = [] ∧ StopResolved roles (knownRoles places parentId) (readRow parse row) := by
    simp only [saveRouteRows, saveRouteStops, bind_eq_ok] at h
    obtain ⟨stops, hstops, -⟩ := h
    intro row hrow hstarted
    refine (resolveRouteStops_eq_ok.1 hstops).1 (readRow parse row) ?_
    rw [startedRows_readRow]
    exact List.mem_map.2 ⟨row, List.mem_filter.2 ⟨hrow, hstarted⟩, rfl⟩
  have hsame : (∀ row ∈ rows, carries row = true → rowStarted row = true) → ∀ n,
      (rows.take n).countP carries = (rows.take n).countP rowStarted := by
    intro hall n
    refine List.countP_congr fun row hrow => ?_
    exact ⟨hall row (List.mem_of_mem_take hrow), carries_of_started⟩
  constructor
  · intro hstored
    -- The last row that carries a value has a stop, so there are as many started rows.
    have hall : ∀ row ∈ rows, carries row = true → rowStarted row = true := by
      by_cases hany : ∃ row ∈ rows, carries row = true
      · obtain ⟨n, row, hn, hcarries, hcount⟩ := Positions.exists_last hany
        obtain ⟨id, stop, hstop, -⟩ := hstored n row hn hcarries
        obtain ⟨payload, hpayload, -, -⟩ := (stopAt_iff hsaved).1 hstop
        obtain ⟨hlt, -⟩ := List.getElem?_eq_some_iff.1 hpayload
        refine Positions.forall_of_countP_le (fun row _ => carries_of_started) ?_
        rw [suppliedRows, List.length_map, ← List.countP_eq_length_filter] at hlt
        omega
      · exact fun row hrow hcarries => absurd ⟨row, hrow, hcarries⟩ hany
    intro row hrow hcarries
    obtain ⟨n, hn⟩ := List.mem_iff_getElem?.1 hrow
    have hstarted := hall row hrow hcarries
    obtain ⟨id, stop, hstop, hholds⟩ := hstored n row hn hcarries
    rw [hsame hall n] at hstop
    obtain ⟨payload, hpayload, -, heq⟩ := (stopAt_iff hsaved).1 hstop
    rw [suppliedRows_getElem? hn hstarted, Option.some.injEq] at hpayload
    subst hpayload
    refine ⟨hstarted, fun key v hcarried hkey => ?_⟩
    obtain ⟨hschema, hresolved⟩ := hvalid row hrow hstarted
    obtain ⟨hmeans, hcolumn⟩ := hholds key v hcarried hkey
    rw [show stop = (placedRow hasActual places parentId _ id).2 from congrArg Prod.snd heq,
      column_placed hschema hresolved key hkey] at hcolumn
    exact ⟨hmeans, hcolumn⟩
  · intro hread n row hn hcarries
    have hrow := List.mem_of_getElem? hn
    obtain ⟨hstarted, hvalues⟩ := hread row hrow hcarries
    obtain ⟨hschema, hresolved⟩ := hvalid row hrow hstarted
    have hpayload : (suppliedRows parse rows)[(rows.take n).countP rowStarted]? = some (readRow parse row) :=
      suppliedRows_getElem? hn hstarted
    obtain ⟨hlt, -⟩ := List.getElem?_eq_some_iff.1 hpayload
    have hid := List.getElem?_eq_getElem (hsaved.length ▸ hlt)
    rw [hsame fun row hrow hcarries => (hread row hrow hcarries).1]
    refine ⟨_, _, (stopAt_iff hsaved).2 ⟨readRow parse row, hpayload, hid, rfl⟩, fun key v hcarried hkey => ?_⟩
    obtain ⟨hmeans, hsource⟩ := hvalues key v hcarried hkey
    exact ⟨hmeans, (column_placed hschema hresolved key hkey).trans hsource⟩

/-- An error of a row that was moved is another row's. -/
theorem reported_iff {e : Error} (he : e.fieldErrors = ((suppliedRows parse rows).zipIdx.map fun x =>
      stageErrors parse roles known rows x.2 x.1).flatten) :
    (∀ n row, rows[n]? = some row → carries row = true → Faulty parse roles known rows row → Addressed e n) ↔
      ∀ n row, rows[n]? = some row → carries row = true → Faulty parse roles known rows row →
        ∀ before ∈ rows.take (n + 1), rowStarted before = true := by
  have haddressed : ∀ n, Addressed e n ↔
      ∃ m row, rows[m]? = some row ∧ rowStarted row = true ∧ (rows.take m).countP rowStarted = n ∧
        Faulty parse roles known rows row := by
    intro n
    rw [Addressed, he, addressed_iff stageErrors_path]
    constructor
    · rintro ⟨payload, hpayload, hne⟩
      rw [suppliedRows, List.getElem?_map, Option.map_eq_some_iff] at hpayload
      obtain ⟨row, hrow, rfl⟩ := hpayload
      obtain ⟨m, hm, hstarted, hcount⟩ := Positions.exists_of_getElem?_filter hrow
      exact ⟨m, row, hm, hstarted, hcount, mt stageErrors_eq_nil.2 hne⟩
    · rintro ⟨m, row, hm, hstarted, rfl, hfaulty⟩
      exact ⟨_, suppliedRows_getElem? hm hstarted, mt stageErrors_eq_nil.1 hfaulty⟩
  constructor
  · intro h
    -- A row that another row is addressed for has a faulty row behind it, so the last faulty row is its own.
    have hunmoved : ∀ d n row, rows.length - n ≤ d → rows[n]? = some row → carries row = true →
        Faulty parse roles known rows row → (rows.take (n + 1)).countP rowStarted = n + 1 := by
      intro d
      induction d with
      | zero =>
        intro n row hd hn
        obtain ⟨hlt, -⟩ := List.getElem?_eq_some_iff.1 hn
        omega
      | succ d ih =>
        intro n row hd hn hcarries hfaulty
        obtain ⟨m, row', hm, hstarted, hcount, hfaulty'⟩ := (haddressed n).1 (h n row hn hcarries hfaulty)
        obtain ⟨hlt, -⟩ := List.getElem?_eq_some_iff.1 hm
        have hle : n ≤ m := hcount ▸ Positions.countP_take_le
        rcases hle.eq_or_lt with rfl | hmore
        · rw [List.take_add_one, List.countP_append, hcount, hm]
          simp [hstarted]
        · have hmoved := ih m row' (by omega) hm (carries_of_started hstarted) hfaulty'
          have hall := (Positions.countP_take_eq (by omega)).1 hmoved
          have hstays := (Positions.countP_take_eq hlt.le).2 fun a ha => hall a (List.mem_of_mem_take (by
            rwa [List.take_take, min_eq_left (Nat.le_succ m)]))
          omega
    intro n row hn hcarries hfaulty
    obtain ⟨hlt, -⟩ := List.getElem?_eq_some_iff.1 hn
    exact (Positions.countP_take_eq hlt).1 (hunmoved _ n row le_rfl hn hcarries hfaulty)
  · intro h n row hn hcarries hfaulty
    have hall := h n row hn hcarries hfaulty
    obtain ⟨hlt, -⟩ := List.getElem?_eq_some_iff.1 hn
    have hrow : row ∈ rows.take (n + 1) := by
      rw [List.take_add_one, hn]
      simp
    refine (haddressed n).2 ⟨n, row, hn, hall row hrow, ?_, hfaulty⟩
    refine (Positions.countP_take_eq hlt.le).2 fun a ha => hall a ?_
    rw [List.take_add_one]
    exact List.mem_append_left _ ha

end

/-- A role and a place under aliases of their keys. -/
def aliasRow : RouteRow := [("place_role_id", .num 1), ("free_text", .str "Quay 4")]

/-- A role, and no place. -/
def roleOnlyRow : RouteRow := [("placeRoleId", .num 1)]

end LcsSystem
