import LcsSystem.MasterData.RouteReadings

/-!
# Inactive roles on a route

A submitted stop has an inactive role only where the stored stop that it names has it. So after a save
(`saveRouteStops_inactive`) a route has an inactive role only if it had it before, and no more often unless a
stored stop was named twice.
-/

namespace LcsSystem
open Relational Checks

/-- How many stops of a route have the role. -/
def roleCount (rows : List (ℕ × RoutePlace)) (roleId : ℕ) : ℕ := rows.countP fun r => r.2.placeRoleId == some roleId

/-- A submitted stop that refers to an inactive role. -/
def RouteStopPayload.isHistorical (roles : Table PlaceRole) (row : RouteStopPayload) : Bool :=
  (row.roleReference.bind (roleFor roles)).any fun r => !r.2.active

/-- The stops that refer to inactive roles name different rows. -/
def NamedOnce (roles : Table PlaceRole) (rows : Field (List RouteStopPayload)) : Prop :=
  (((startedRows rows).filter fun row => row.isHistorical roles).map fun row => row.id.get?.bind Reference.asInt).Nodup

instance (roles : Table PlaceRole) (rows : Field (List RouteStopPayload)) : Decidable (NamedOnce roles rows) :=
  inferInstanceAs (Decidable (List.Nodup _))

/-- A selection of rows whose keys are all among those of a list is no longer than the list. -/
theorem length_select_le {α : Type} {t : Table α} {p : α → Bool} (keys : List ℕ)
    (h : ∀ id a, t.get? id = some a → p a = true → id ∈ keys) : (t.select p).length ≤ keys.length := by
  have hnodup : ((t.select p).map Prod.fst).Nodup := t.nodup.sublist (List.filter_sublist.map _)
  have hsub : (t.select p).map Prod.fst ⊆ keys := by
    intro id hid
    obtain ⟨r, hr, rfl⟩ := List.mem_map.1 hid
    obtain ⟨hget, hp⟩ := Table.mem_select.1 hr
    exact h r.1 r.2 hget hp
  have hle := (List.subperm_of_subset hnodup hsub).length_le
  rwa [List.length_map] at hle

theorem roleCount_eq_length (places : Table RoutePlace) (parentId roleId : ℕ) :
    roleCount (places.select fun p => p.parentId == parentId) roleId =
      (places.select fun p => p.parentId == parentId && p.placeRoleId == some roleId).length := by
  simp only [roleCount, Table.select, List.countP_eq_length_filter, List.filter_filter]
  congr 2
  funext r
  exact Bool.and_comm _ _

/-! ## Submitted stops -/

section
variable {roles : Table PlaceRole} {known : List (ℕ × Option ℕ)} {roleId : ℕ} {role : PlaceRole}

/-- An accepted stop with an inactive role names a stored stop with that role. -/
theorem StopResolved.historical {row : RouteStopPayload} (h : StopResolved roles known row)
    (hrole : roles.get? roleId = some role) (hinactive : role.active = false)
    (hstop : (resolveRouteStop roles known row).placeRoleId = some roleId) :
    row.isHistorical roles = true ∧
      ∃ id, row.id.get?.bind Reference.asInt = some id ∧ known.lookup id = some (some roleId) := by
  obtain ⟨⟨reference, foundId, found, hreference, hfound, hallowed⟩, -⟩ := h
  have hresolved : row.roleReference.bind (roleFor roles) = some (foundId, found) := by
    rw [hreference, Option.bind_some, hfound]
  simp only [resolveRouteStop, hresolved, Option.map_some, Option.some.injEq] at hstop
  subst hstop
  have hsame : found = role := by
    rw [roleFor_eq_some hfound, Option.some.injEq] at hrole
    exact hrole
  subst hsame
  refine ⟨by simp [RouteStopPayload.isHistorical, hresolved, hinactive], ?_⟩
  have hstored := hallowed.resolve_left (by simp [hinactive])
  rw [RouteStopPayload.storedRole, Option.bind_eq_some_iff] at hstored
  obtain ⟨id, hid, hlookup⟩ := hstored
  refine ⟨id, (Option.filter_eq_some_iff.1 hid).1, ?_⟩
  cases hknown : known.lookup id with
  | none =>
    rw [hknown] at hlookup
    cases hlookup
  | some stored =>
    rw [hknown] at hlookup
    exact congrArg some hlookup

/-- The accepted stops with an inactive role. -/
theorem resolveRouteStops_historical {rows : Field (List RouteStopPayload)} {stops : List RouteStop}
    (h : resolveRouteStops roles known rows = .ok stops) (hrole : roles.get? roleId = some role)
    (hinactive : role.active = false) :
    (∀ stop ∈ stops, stop.placeRoleId = some roleId → ∃ id, known.lookup id = some (some roleId)) ∧
      (NamedOnce roles rows →
        stops.countP (fun stop => stop.placeRoleId == some roleId) ≤ known.countP fun k => k.2 == some roleId) := by
  obtain ⟨haccepted, rfl⟩ := resolveRouteStops_eq_ok.1 h
  have hnamed : ∀ row ∈ startedRows rows, (resolveRouteStop roles known row).placeRoleId = some roleId →
      row.isHistorical roles = true ∧
        ∃ id, row.id.get?.bind Reference.asInt = some id ∧ known.lookup id = some (some roleId) :=
    fun row hrow => (haccepted row hrow).2.historical hrole hinactive
  constructor
  · intro stop hstop hhas
    obtain ⟨row, hrow, rfl⟩ := List.mem_map.1 hstop
    obtain ⟨-, id, -, hlookup⟩ := hnamed row hrow hhas
    exact ⟨id, hlookup⟩
  · intro honce
    generalize hsupplied : startedRows rows = supplied at hnamed
    rw [NamedOnce, hsupplied] at honce
    rw [List.countP_map, List.countP_eq_length_filter, List.countP_eq_length_filter]
    generalize hshort : supplied.filter ((fun stop => stop.placeRoleId == some roleId) ∘ resolveRouteStop roles known) = short
    have hmem : ∀ row ∈ short, row.isHistorical roles = true ∧
        ∃ id, row.id.get?.bind Reference.asInt = some id ∧ known.lookup id = some (some roleId) := by
      intro row hrow
      rw [← hshort, List.mem_filter] at hrow
      exact hnamed row hrow.1 (beq_iff_eq.1 hrow.2)
    have hnodup : (short.map fun row => row.id.get?.bind Reference.asInt).Nodup := by
      refine honce.sublist (List.Sublist.map _ ?_)
      rw [← List.filter_eq_self.2 fun row hrow => (hmem row hrow).1, ← hshort]
      exact (List.filter_sublist).filter _
    have hsub : (short.map fun row => row.id.get?.bind Reference.asInt) ⊆
        (known.filter fun k => k.2 == some roleId).map fun k => some k.1 := by
      intro named hin
      obtain ⟨row, hrow, rfl⟩ := List.mem_map.1 hin
      obtain ⟨-, id, hid, hlookup⟩ := hmem row hrow
      rw [hid]
      obtain ⟨before, after, rfl, -⟩ := List.lookup_eq_some_iff.1 hlookup
      exact List.mem_map.2 ⟨(id, some roleId), by simp, rfl⟩
    have hle := (List.subperm_of_subset hnodup hsub).length_le
    rwa [List.length_map, List.length_map] at hle

end

/-! ## A save -/

/-- **Inactive roles after a save**: the route has one only where a stored stop had it, and no more often than
before where no stored stop was named twice. -/
theorem saveRouteStops_inactive {roles : Table PlaceRole} {hasActual : Bool} {places places' : Table RoutePlace}
    {parentId roleId : ℕ} {role : PlaceRole} {rows : Field (List RouteStopPayload)}
    (h : saveRouteStops roles hasActual places parentId rows = .ok places') (hrole : roles.get? roleId = some role)
    (hinactive : role.active = false) :
    (0 < roleCount (places'.select fun p => p.parentId == parentId) roleId →
        0 < roleCount (places.select fun p => p.parentId == parentId) roleId) ∧
      (NamedOnce roles rows → roleCount (places'.select fun p => p.parentId == parentId) roleId ≤
        roleCount (places.select fun p => p.parentId == parentId) roleId) := by
  obtain ⟨stops, done, hstops, hdone, hwritten⟩ := saveRouteStops_written h
  obtain ⟨hbefore, honce⟩ := resolveRouteStops_historical hstops hrole hinactive
  have hknown : ((places.select fun p => p.parentId == parentId).map fun r => (r.1, r.2.placeRoleId)).countP
      (fun k => k.2 == some roleId) = roleCount (places.select fun p => p.parentId == parentId) roleId := by
    rw [List.countP_map]
    rfl
  have hafter : roleCount (places'.select fun p => p.parentId == parentId) roleId ≤
      stops.countP fun stop => stop.placeRoleId == some roleId := by
    rw [roleCount_eq_length]
    refine (length_select_le ((done.filter fun d => d.2.placeRoleId == some roleId).map Prod.fst) ?_).trans ?_
    · intro i row hrow hhas
      rw [Bool.and_eq_true, beq_iff_eq] at hhas
      obtain ⟨s, index, base, hmem, rfl, -⟩ := hwritten i row hrow hhas.1
      exact List.mem_map.2 ⟨(i, s), List.mem_filter.2 ⟨hmem, hhas.2⟩, rfl⟩
    · rw [List.length_map, ← List.countP_eq_length_filter, ← hdone, List.countP_map]
      rfl
  constructor
  · intro hpos
    obtain ⟨stop, hstop, hhas⟩ := List.countP_pos_iff.1 (hpos.trans_le hafter)
    obtain ⟨id, hlookup⟩ := hbefore stop hstop (beq_iff_eq.1 hhas)
    obtain ⟨before, after, heq, -⟩ := List.lookup_eq_some_iff.1 hlookup
    rw [← hknown, heq]
    simp
  · intro hnamed
    exact hafter.trans (hknown ▸ honce hnamed)

/-! ## Rows that can be read again -/

namespace PositiveKeys
variable {α : Type} {t : Table α}

theorem empty : PositiveKeys (Table.empty : Table α) := by
  refine ⟨Nat.zero_lt_one, fun id a ha => ?_⟩
  cases ha

theorem insert (h : PositiveKeys t) (a : α) : PositiveKeys (t.insert a) :=
  ⟨Nat.succ_pos _, Table.forall_insert h.2 h.1⟩

theorem insertAll (h : PositiveKeys t) (rows : List α) : PositiveKeys (t.insertAll rows) := by
  induction rows generalizing t with
  | nil => exact h
  | cons a rows ih => exact ih (h.insert a)

theorem modify (h : PositiveKeys t) (id : ℕ) (f : α → α) : PositiveKeys (t.modify id f) := by
  refine ⟨h.1, fun i b hb => ?_⟩
  rw [Table.get?_modify] at hb
  split at hb
  · obtain ⟨a, ha, -⟩ := Option.map_eq_some_iff.1 hb
    exact h.2 i a ha
  · exact h.2 i b hb

theorem erase (h : PositiveKeys t) (p : ℕ → α → Bool) : PositiveKeys (t.erase p) := by
  refine ⟨h.1, fun i a ha => ?_⟩
  rw [Table.get?_erase, Option.filter_eq_some_iff] at ha
  exact h.2 i a ha.1

end PositiveKeys

theorem writeStop_positiveKeys {hasActual : Bool} {parentId : ℕ} {w : RouteWrite} (h : PositiveKeys w.places)
    (stops : List (RouteStop × ℕ)) : PositiveKeys (stops.foldl (writeStop hasActual parentId) w).places := by
  induction stops generalizing w with
  | nil => exact h
  | cons stop stops ih =>
    refine ih ?_
    unfold writeStop
    split
    · exact h.modify _ _
    · exact h.insert _

/-- The rows of the parent are accepted stops, the others are as they were. -/
theorem saveRouteStops_rows {roles : Table PlaceRole} {hasActual : Bool} {places places' : Table RoutePlace}
    {parentId : ℕ} {rows : Field (List RouteStopPayload)} (h : saveRouteStops roles hasActual places parentId rows = .ok places')
    (hkeys : PositiveKeys places) :
    PositiveKeys places' ∧ ∀ i row, places'.get? i = some row →
      row.parentId = parentId ∧ KeptStop roles row ∨ places.get? i = some row := by
  constructor
  · simp only [saveRouteStops, bind_eq_ok, pure_eq_ok] at h
    obtain ⟨stops, -, rfl⟩ := h
    refine PositiveKeys.erase (writeStop_positiveKeys ?_ _) _
    exact List.foldlRecOn _ parkRow hkeys fun t ht r _ => ht.modify _ _
  · intro i row hrow
    by_cases hparent : row.parentId = parentId
    · obtain ⟨stops, done, hstops, hdone, hwritten⟩ := saveRouteStops_written h
      obtain ⟨s, index, base, hmem, rfl, -⟩ := hwritten i row hrow hparent
      obtain ⟨haccepted, rfl⟩ := resolveRouteStops_eq_ok.1 hstops
      have hs : s ∈ done.map Prod.snd := List.mem_map_of_mem hmem
      rw [hdone] at hs
      obtain ⟨payload, hpayload, rfl⟩ := List.mem_map.1 hs
      obtain ⟨hschema, hresolved⟩ := haccepted payload hpayload
      exact .inl ⟨hparent, hresolved.keptStop hschema hasActual index base⟩
    · have hsame := saveRouteStops_others hparent h
      have hrow' : (i, row) ∈ places'.select fun p => p.parentId == row.parentId :=
        Table.mem_select.2 ⟨hrow, beq_self_eq_true _⟩
      rw [hsame] at hrow'
      exact .inr (Table.mem_select.1 hrow').1

end LcsSystem
