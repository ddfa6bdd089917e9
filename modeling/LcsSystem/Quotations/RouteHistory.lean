import LcsSystem.MasterData.InactiveRoles
import LcsSystem.Quotations.CommercialRuns

/-!
# Historical roles on a quotation's route

`get_quotation` returns the route of the latest revision; `historical_roles` says when a save takes it back
as it was returned, and that a save brings no inactive role onto the route. A draft keeps the ids of its
stops, so it keeps their roles; a revision that has left DRAFT is copied first (`_clone_revision`), and the ids
of its stops name nothing in the copy.
-/

namespace LcsSystem
open Relational Checks Transition

/-- The requests on quotations, and a role that is added or edited in the master data. -/
inductive RouteAction
  | operation (a : QuotationOperation)
  | addRole (role : PlaceRole)
  | editRole (id : ℕ) (role : PlaceRole)

def routeStep (db : QuotationDb) : RouteAction → QuotationDb
  | .operation a => operationStep db a
  | .addRole role => { db with placeRoles := db.placeRoles.insert role }
  | .editRole id role => { db with placeRoles := db.placeRoles.modify id fun _ => role }

/-! ## The invariant -/

/-- Every stored stop was once accepted, under a revision that was inserted. -/
structure RoutesKept (db : QuotationDb) : Prop where
  roles : PositiveKeys db.placeRoles
  keys : PositiveKeys db.places
  stops : ∀ i row, db.places.get? i = some row → KeptStop db.placeRoles row
  parents : db.places.KeysBelow (fun p => some p.parentId) db.revisions.nextId

theorem KeptStop.mono {roles roles' : Table PlaceRole} {row : RoutePlace} (h : KeptStop roles row)
    (hroles : ∀ id role, roles.get? id = some role → ∃ role', roles'.get? id = some role') : KeptStop roles' row := by
  obtain ⟨id, role, hid, hrole⟩ := h.role
  obtain ⟨role', hrole'⟩ := hroles id role hrole
  exact ⟨⟨id, role', hid, hrole'⟩, h.place, h.notes⟩

theorem placesOf_eq_nil {db : QuotationDb} (h : db.places.KeysBelow (fun p => some p.parentId) db.revisions.nextId) :
    (db.places.select fun p => p.parentId == db.revisions.nextId) = [] :=
  h.select_eq_nil fun _ hp => congrArg some (beq_iff_eq.1 hp)

/-! ## Writes of a route -/

namespace RoutesKept
variable {db db' : QuotationDb} {revisionId : ℕ}

/-- A write that reaches neither the roles nor the route of a revision. -/
theorem same (h : RoutesKept db) (hroles : db'.placeRoles = db.placeRoles) (hplaces : db'.places = db.places)
    (hrevisions : db.revisions.nextId ≤ db'.revisions.nextId) : RoutesKept db' where
  roles := hroles ▸ h.roles
  keys := hplaces ▸ h.keys
  stops := by
    rw [hroles, hplaces]
    exact h.stops
  parents := by
    rw [hplaces]
    exact h.parents.mono hrevisions

/-- The route of a copy, under the key of the new revision. -/
theorem cloneRevision (h : RoutesKept db) (quotationId : ℕ) (source : ℕ × QuotationRevision) (userId : Option ℕ) :
    RoutesKept (cloneRevision db quotationId source userId).1 where
  roles := h.roles
  keys := h.keys.insertAll _
  stops i row hrow := by
    have hvalues : row ∈ db.places.values ++ (((db.placesOf source.1).insertionSort placeOrder).map fun p =>
        { p.2 with parentId := db.revisions.nextId, actualAt := none }) := by
      rw [← Table.values_insertAll]
      exact Table.mem_values.2 ⟨i, hrow⟩
    rcases List.mem_append.1 hvalues with hold | hcopy
    · obtain ⟨j, hj⟩ := Table.mem_values.1 hold
      exact h.stops j row hj
    · obtain ⟨p, hp, rfl⟩ := List.mem_map.1 hcopy
      rw [List.mem_insertionSort, QuotationDb.placesOf] at hp
      have hkept := h.stops p.1 p.2 (Table.mem_select.1 hp).1
      exact ⟨hkept.role, hkept.place, hkept.notes⟩
  parents := by
    refine (h.parents.mono (Nat.le_succ _)).insertAll fun row hrow => ?_
    obtain ⟨p, -, rfl⟩ := List.mem_map.1 hrow
    rintro _ ⟨⟩
    exact Nat.lt_succ_self _

theorem savePlaces (h : RoutesKept db) {p : QuotationPayload} {r : QuotationRevision}
    (hr : db.revisions.get? revisionId = some r) (hsave : savePlaces db revisionId p = .ok db') : RoutesKept db' := by
  unfold LcsSystem.savePlaces at hsave
  split at hsave
  · simp only [bind_eq_ok, pure_eq_ok] at hsave
    obtain ⟨places, hplaces, rfl⟩ := hsave
    obtain ⟨hkeys, hrows⟩ := saveRouteStops_rows hplaces h.keys
    refine ⟨h.roles, hkeys, fun i row hrow => ?_, fun row hrow => ?_⟩
    · rcases hrows i row hrow with ⟨-, hkept⟩ | hold
      · exact hkept
      · exact h.stops i row hold
    · obtain ⟨i, hi⟩ := Table.mem_values.1 hrow
      rintro _ ⟨⟩
      rcases hrows i row hi with ⟨hparent, -⟩ | hold
      · exact hparent ▸ Table.lt_nextId hr
      · exact h.parents row (Table.mem_values.2 ⟨i, hold⟩) _ rfl
  · cases hsave
    exact h

theorem write (h : RoutesKept db) (hwrite : QuotationWrite db db') : RoutesKept db' := by
  cases hwrite with
  | header parties directions sequences quotations => exact h.same rfl rfl le_rfl
  | conversions conversions => exact h.same rfl rfl le_rfl
  | first env quotationId quotationDate validUntil currency hcurrency => exact h.same rfl rfl (Nat.le_succ _)
  | copy quotationId source userId hsource => exact h.cloneRevision quotationId source userId
  | dates revisionId p hdraft hdated =>
    simp only [saveRevisionHeader, bind_eq_ok, pure_eq_ok] at hdated
    obtain ⟨_, -, rfl⟩ := hdated
    exact h.same rfl rfl le_rfl
  | containers revisionId p hdraft hcontainers =>
    obtain ⟨types, containers, rfl⟩ := saveContainers_spec hcontainers
    exact h.same rfl rfl le_rfl
  | route revisionId p hdraft hplaces =>
    obtain ⟨r, hr, -⟩ := hdraft
    exact h.savePlaces hr hplaces
  | lines revisionId p hdraft hlines =>
    rcases savePricingLines_spec hlines with rfl | ⟨lines, amounts, rfl⟩
    · exact h
    · exact h.same rfl rfl le_rfl
  | status revisionId status hleft => exact h.same rfl rfl le_rfl
  | order env quotation revision orderId hrevision hleft hcreate =>
    simp only [createServiceOrderFromQuotation, bind_eq_ok, check_eq_ok, pure_eq_ok, Prod.mk.injEq] at hcreate
    obtain ⟨_, -, rfl, -⟩ := hcreate
    exact h.same rfl rfl le_rfl
  | remove quotationId horders =>
    refine ⟨h.roles, h.keys.erase _, fun i row hrow => ?_, h.parents.erase _⟩
    rw [removeQuotation, Table.get?_erase, Option.filter_eq_some_iff] at hrow
    exact h.stops i row hrow.1

/-- **Step lemma.** -/
theorem step (h : RoutesKept db) (a : RouteAction) : RoutesKept (routeStep db a) := by
  cases a with
  | addRole role =>
    refine ⟨h.roles.insert role, h.keys, fun i row hrow => (h.stops i row hrow).mono fun id r hr => ?_, h.parents⟩
    exact ⟨r, Table.get?_insert_of_some hr⟩
  | editRole id role =>
    refine ⟨h.roles.modify id _, h.keys, fun i row hrow => (h.stops i row hrow).mono fun j r hr => ?_, h.parents⟩
    rw [routeStep, Table.get?_modify, hr]
    split
    · exact ⟨role, rfl⟩
    · exact ⟨r, rfl⟩
  | operation a => exact operationStep_invariant (fun _ _ h => h.write) h a

end RoutesKept

/-! ## The route that a save finds -/

/-- The route that `get_quotation` returns: the one of the latest revision. -/
def currentRoute (db : QuotationDb) (quotationId : ℕ) : List (ℕ × RoutePlace) :=
  match latestRevision db quotationId with
  | some latest => db.placesOf latest.1
  | none => []

/-- The route of the quotation that a body names; a new one has none. -/
def routeBefore (db : QuotationDb) (p : QuotationPayload) : List (ℕ × RoutePlace) :=
  match storedQuotation db p with
  | some (quotationId, _) => currentRoute db quotationId
  | none => []

/-- The stops that a copy of the revision starts with. -/
def copiedRoute (db : QuotationDb) (revisionId : ℕ) : List RoutePlace :=
  ((db.placesOf revisionId).insertionSort placeOrder).map fun p =>
    { p.2 with parentId := db.revisions.nextId, actualAt := none }

/-- The revision that a save writes, and the route it has by then. -/
inductive OpenedRoute (db : QuotationDb) (p : QuotationPayload) (quotationId : ℕ) : ℕ → Table RoutePlace → Prop
  | new (hnew : storedQuotation db p = none) : OpenedRoute db p quotationId db.revisions.nextId db.places
  | draft (q : Quotation) (latest : ℕ × QuotationRevision) (hq : storedQuotation db p = some (quotationId, q))
      (hlatest : latestRevision db quotationId = some latest) (hdraft : latest.2.status = .draft) :
      OpenedRoute db p quotationId latest.1 db.places
  | copy (q : Quotation) (latest : ℕ × QuotationRevision) (hq : storedQuotation db p = some (quotationId, q))
      (hlatest : latestRevision db quotationId = some latest) (hleft : latest.2.status ≠ .draft) :
      OpenedRoute db p quotationId db.revisions.nextId (db.places.insertAll (copiedRoute db latest.1))

section
variable {env : Env} {db : QuotationDb} {p : QuotationPayload} {quotationId revisionId : ℕ}

theorem openedRoute (hdb : RevisionsNumbered db) {headed opened : QuotationDb}
    (hheaded : quotationOf env db p = .ok (headed, quotationId))
    (hopened : editableRevision env headed p quotationId = (opened, revisionId)) :
    opened.placeRoles = db.placeRoles ∧ OpenedRoute db p quotationId revisionId opened.places := by
  obtain ⟨parties, directions, sequences, quotations, heq, hquotation⟩ := quotationOf_spec hheaded
  have hroles : headed.placeRoles = db.placeRoles := by rw [heq]
  have hplaces : headed.places = db.places := by rw [heq]
  have hrevisions : headed.revisions = db.revisions := by rw [heq]
  have hnumbered := (revisionsNumbered_iff.1 hdb).1
  have hlatest_eq := latestRevision_congr hrevisions quotationId
  unfold editableRevision at hopened
  rcases hquotation with ⟨q, partyId, directionId, hstored, -⟩ | ⟨hnew, hid, -⟩
  · obtain ⟨latest, hlatest, -⟩ := exists_latestRevision hnumbered (storedQuotation_eq_some hstored)
    simp only [hlatest_eq, hlatest] at hopened
    split at hopened
    · next himmutable =>
      simp only [Prod.mk.injEq] at hopened
      obtain ⟨rfl, rfl⟩ := hopened
      have hleft : latest.2.status ≠ .draft := by
        intro hdraft
        rw [RevisionStatus.isImmutable_eq_false.2 hdraft] at himmutable
        cases himmutable
      have hcopied : (cloneRevision headed quotationId latest env.userId).1.places =
          db.places.insertAll (copiedRoute db latest.1) := by
        simp only [cloneRevision, copiedRoute, QuotationDb.placesOf, hplaces, hrevisions]
      have hcopy := OpenedRoute.copy (p := p) q latest hstored hlatest hleft
      rw [← hcopied, ← hrevisions] at hcopy
      exact ⟨hroles, hcopy⟩
    · next hmutable =>
      simp only [Prod.mk.injEq] at hopened
      obtain ⟨rfl, rfl⟩ := hopened
      have hdraft := RevisionStatus.isImmutable_eq_false.1 (Bool.eq_false_of_not_eq_true hmutable)
      exact ⟨hroles, hplaces ▸ .draft q latest hstored hlatest hdraft⟩
  · have hnone : latestRevision db quotationId = none := by
      have hrows := hnumbered.revisionsOf_nextId
      rw [lifecycle_revisionsOf] at hrows
      rw [hid]
      exact latestRevision_eq_none.2 (List.map_eq_nil_iff.1 hrows)
    simp only [hlatest_eq, hnone, Prod.mk.injEq] at hopened
    obtain ⟨rfl, rfl⟩ := hopened
    have hopen : OpenedRoute db p quotationId db.revisions.nextId db.places := .new hnew
    rw [← hrevisions, ← hplaces] at hopen
    exact ⟨hroles, hopen⟩

theorem lookup_of_mem {β : Type} {l : List (ℕ × β)} {k : ℕ} {b : β} (hl : (l.map Prod.fst).Nodup) (h : (k, b) ∈ l) :
    l.lookup k = some b := by
  induction l with
  | nil => cases h
  | cons r l ih =>
    rw [List.map_cons, List.nodup_cons] at hl
    rw [List.lookup_cons]
    rcases List.mem_cons.1 h with rfl | h
    · rw [beq_self_eq_true]
    · have hne : (k == r.1) = false := by
        rw [beq_eq_false_iff_ne]
        intro heq
        exact hl.1 (heq ▸ List.mem_map_of_mem h)
      rw [hne]
      exact ih hl.2 h

theorem copiedRoute_select (h : RoutesKept db) (sourceId : ℕ) :
    (db.places.insertAll (copiedRoute db sourceId)).select (fun p => p.parentId == db.revisions.nextId) =
      ((copiedRoute db sourceId).zipIdx db.places.nextId).map Prod.swap := by
  refine (Table.select_insertAll db.places fun row hrow => ?_).trans ?_
  · obtain ⟨r, -, rfl⟩ := List.mem_map.1 hrow
    exact beq_self_eq_true _
  · rw [placesOf_eq_nil h.parents, List.nil_append]

/-- A copy has the roles of its source. -/
theorem OpenedRoute.roleCount_eq (h : RoutesKept db) {places : Table RoutePlace}
    (hopened : OpenedRoute db p quotationId revisionId places) (roleId : ℕ) :
    roleCount (places.select fun p => p.parentId == revisionId) roleId = roleCount (routeBefore db p) roleId := by
  cases hopened with
  | new hnew =>
    rw [placesOf_eq_nil h.parents, routeBefore, hnew]
  | draft q latest hq hlatest hdraft =>
    simp only [routeBefore, hq, currentRoute, hlatest]
    rfl
  | copy q latest hq hlatest hleft =>
    simp only [routeBefore, hq, currentRoute, hlatest]
    rw [copiedRoute_select h]
    calc roleCount (((copiedRoute db latest.1).zipIdx db.places.nextId).map Prod.swap) roleId
        = (((copiedRoute db latest.1).zipIdx db.places.nextId).map Prod.fst).countP
            (fun p => p.placeRoleId == some roleId) := by
          rw [roleCount, List.countP_map, List.countP_map]
          rfl
      _ = roleCount ((db.placesOf latest.1).insertionSort placeOrder) roleId := by
          rw [List.zipIdx_map_fst, copiedRoute, List.countP_map]
          rfl
      _ = roleCount (db.placesOf latest.1) roleId := (List.perm_insertionSort placeOrder _).countP_eq _

/-- The stored role of a stop of the current route, as the save finds it: a copy has no row of that id. -/
theorem OpenedRoute.lookup_eq {places : Table RoutePlace}
    (hopened : OpenedRoute db p quotationId revisionId places) {latest : ℕ × QuotationRevision}
    (hlatest : latestRevision db quotationId = some latest) (hstored : (storedQuotation db p).isSome) {row : ℕ × RoutePlace}
    (hrow : row ∈ db.placesOf latest.1) :
    ((places.select fun p => p.parentId == revisionId).map fun r => (r.1, r.2.placeRoleId)).lookup row.1 =
      if latest.2.status = .draft then some row.2.placeRoleId else none := by
  obtain ⟨hget, hparent⟩ := Table.mem_select.1 hrow
  rw [beq_iff_eq] at hparent
  cases hopened with
  | new hnew =>
    rw [hnew] at hstored
    cases hstored
  | draft q current hq hcurrent hdraft =>
    rw [hlatest, Option.some.injEq] at hcurrent
    subst hcurrent
    rw [if_pos hdraft]
    refine lookup_of_mem ?_ (List.mem_map.2 ⟨row, hrow, rfl⟩)
    rw [List.map_map]
    exact db.places.nodup.sublist (List.filter_sublist.map _)
  | copy q current hq hcurrent hleft =>
    rw [hlatest, Option.some.injEq] at hcurrent
    subst hcurrent
    rw [if_neg hleft, List.lookup_eq_none_iff]
    intro k hk
    obtain ⟨other, hother, rfl⟩ := List.mem_map.1 hk
    obtain ⟨hfound, hunder⟩ := Table.mem_select.1 hother
    rw [beq_iff_eq] at hunder
    rw [bne_iff_ne]
    intro hsame
    -- the row of this id is still the source's
    have hkept := Table.get?_insertAll_of_some (copiedRoute db latest.1) hget
    rw [hsame, hfound, Option.some.injEq] at hkept
    rw [hkept, hparent] at hunder
    exact (Table.lt_nextId (latestRevision_eq_some hlatest).1).ne hunder

end

/-! ## The route as it was returned -/

/-- The body with the route that `get_quotation` returned. -/
def withRoute (db : QuotationDb) (quotationId : ℕ) (p : QuotationPayload) : QuotationPayload :=
  { p with places := .value (routeStopPayloads db.placeRoles (currentRoute db quotationId)) }

/-- The names of the roles are not too long for the form, and the revision is a draft or the roles are
active. -/
def RouteResubmittable (db : QuotationDb) (latest : ℕ × QuotationRevision) : Prop :=
  ∀ row ∈ db.placesOf latest.1, ∀ id ∈ row.2.placeRoleId, ∀ role ∈ db.placeRoles.get? id,
    (strip role.name).length ≤ 64 ∧ (role.active = true ∨ latest.2.status = .draft)

/-- The lines do not depend on the route. -/
theorem pricedLinesFrom_places (db : QuotationDb) (places : Table RoutePlace) (index : ℕ)
    (lines : List PricingLinePayload) :
    pricedLinesFrom { db with places := places } index lines = pricedLinesFrom db index lines := by
  induction lines generalizing index with
  | nil => rfl
  | cons line lines ih =>
    simp only [pricedLinesFrom, ih]
    rfl

theorem savePricingLines_places {db saved : QuotationDb} {revisionId : ℕ} {p : QuotationPayload}
    (h : savePricingLines db revisionId p = .ok saved) (places : Table RoutePlace) :
    ∃ saved', savePricingLines { db with places := places } revisionId p = .ok saved' := by
  unfold savePricingLines at h ⊢
  cases hsent : p.pricedRows with
  | none => exact ⟨_, rfl⟩
  | some sent =>
    simp only [hsent, bind_eq_ok, pure_eq_ok] at h ⊢
    obtain ⟨payloads, hpayloads, priced, hpriced, rows, hrows, amounts, hamounts, -⟩ := h
    rw [← pricedLinesFrom_places db places] at hpriced
    exact ⟨_, payloads, hpayloads, priced, hpriced, rows, hrows, amounts, hamounts, rfl⟩

/-- What a save writes before the route is no route. -/
theorem saveContainers_route {opened dated boxed : QuotationDb} {revisionId : ℕ} {p : QuotationPayload}
    (hdated : saveRevisionHeader opened revisionId p = .ok dated) (hboxed : saveContainers dated revisionId p = .ok boxed) :
    boxed.placeRoles = opened.placeRoles ∧ boxed.places = opened.places := by
  obtain ⟨types, containers, rfl⟩ := saveContainers_spec hboxed
  simp only [saveRevisionHeader, bind_eq_ok, pure_eq_ok] at hdated
  obtain ⟨_, -, rfl⟩ := hdated
  exact ⟨rfl, rfl⟩

/-- A body that is accepted without a route is accepted with one where the route is. -/
theorem saveQuotation_route {env : Env} {db : QuotationDb} {p : QuotationPayload} {out : QuotationDb × ℕ × ℕ}
    (hplaces : p.places = .absent) (h : saveQuotation env db p = .ok out) (rows : List RouteStopPayload) :
    ∃ headed opened quotationId revisionId, quotationOf env db p = .ok (headed, quotationId) ∧
      editableRevision env headed p quotationId = (opened, revisionId) ∧
      ((∃ out', saveQuotation env db { p with places := .value rows } = .ok out') ↔
        ∃ places, saveRouteStops opened.placeRoles false opened.places revisionId (.value rows) = .ok places) := by
  simp only [saveQuotation, bind_eq_ok] at h
  obtain ⟨_, hvalid, ⟨headed, quotationId⟩, hheaded, h⟩ := h
  cases hopened : editableRevision env headed p quotationId with
  | mk opened revisionId =>
    simp only [hopened] at h
    obtain ⟨dated, hdated, saved, hsaved, -⟩ := h
    simp only [saveRevisionChildren, bind_eq_ok] at hsaved
    obtain ⟨boxed, hboxed, routed, hrouted, hlines⟩ := hsaved
    have hunrouted : routed = boxed := by
      simp only [savePlaces, hplaces, Field.sent] at hrouted
      cases hrouted
      rfl
    subst hunrouted
    have hdb := saveContainers_route hdated hboxed
    refine ⟨headed, opened, quotationId, revisionId, hheaded, hopened, ?_⟩
    rw [← hdb.1, ← hdb.2]
    -- the other parts of the save do not see the route
    have hheaded' : quotationOf env db { p with places := .value rows } = .ok (headed, quotationId) := hheaded
    have hopened' : editableRevision env headed { p with places := .value rows } quotationId = (opened, revisionId) :=
      hopened
    have hdated' : saveRevisionHeader opened revisionId { p with places := .value rows } = .ok dated := hdated
    have hboxed' : saveContainers dated revisionId { p with places := .value rows } = .ok routed := hboxed
    constructor
    · rintro ⟨⟨db', quotationId', revisionId'⟩, hsave⟩
      obtain ⟨headed₁, opened₁, dated₁, saved₁, hheaded₁, hopened₁, hdated₁, hsaved₁, -⟩ := saveQuotation_steps hsave
      obtain ⟨rfl, rfl⟩ := Prod.mk.inj (Except.ok.inj (hheaded'.symm.trans hheaded₁))
      obtain ⟨rfl, rfl⟩ := Prod.mk.inj (hopened'.symm.trans hopened₁)
      obtain rfl := Except.ok.inj (hdated'.symm.trans hdated₁)
      simp only [saveRevisionChildren, bind_eq_ok] at hsaved₁
      obtain ⟨boxed₁, hboxed₁, routed₁, hrouted₁, -⟩ := hsaved₁
      obtain rfl := Except.ok.inj (hboxed'.symm.trans hboxed₁)
      simp only [savePlaces, Field.sent, if_true, bind_eq_ok] at hrouted₁
      obtain ⟨places, hplaces₁, -⟩ := hrouted₁
      exact ⟨places, hplaces₁⟩
    · rintro ⟨places, hplaces'⟩
      obtain ⟨saved', hsaved'⟩ := savePricingLines_places hlines places
      have hrouted' : savePlaces routed revisionId { p with places := .value rows } =
          .ok { routed with places := places } := by
        simp only [savePlaces, Field.sent, if_true, hplaces']
        rfl
      have hlines' : savePricingLines { routed with places := places } revisionId { p with places := .value rows } =
          .ok saved' := hsaved'
      have hchildren : saveRevisionChildren dated revisionId { p with places := .value rows } = .ok saved' := by
        rw [saveRevisionChildren, hboxed', ok_bind, hrouted', ok_bind, hlines']
      refine ⟨(modifyQuotation saved' quotationId fun q => { q with data := q.data.merge p }, quotationId, revisionId), ?_⟩
      rw [saveQuotation, bind_eq_ok]
      refine ⟨_, hvalid, ?_⟩
      rw [hheaded', ok_bind]
      simp only [hopened']
      rw [hdated', ok_bind, hchildren, ok_bind]
      rfl

/-- A save takes a route back as it was returned where each stop of it may still be written. -/
def TakesRouteBack (db : QuotationDb) : Prop :=
  ∀ env p quotationId q latest out, storedQuotation db p = some (quotationId, q) →
    latestRevision db quotationId = some latest → p.places = .absent → saveQuotation env db p = .ok out →
      ((∃ out', saveQuotation env db (withRoute db quotationId p) = .ok out') ↔ RouteResubmittable db latest)

theorem RoutesKept.takesRouteBack {db : QuotationDb} (h : RoutesKept db) (hdb : RevisionsNumbered db) :
    TakesRouteBack db := by
  intro env p quotationId q latest out hstored hlatest hplaces hsave
  have hroute : currentRoute db quotationId = db.placesOf latest.1 := by rw [currentRoute, hlatest]
  obtain ⟨headed, opened, quotationId', revisionId, hheaded, hopened, hiff⟩ :=
    saveQuotation_route hplaces hsave (routeStopPayloads db.placeRoles (currentRoute db quotationId))
  obtain ⟨hroles, hopen⟩ := openedRoute hdb hheaded hopened
  have hrows : ∀ row ∈ db.placesOf latest.1, KeptStop db.placeRoles row.2 ∧ 0 < row.1 := by
    intro row hrow
    obtain ⟨hget, -⟩ := Table.mem_select.1 hrow
    exact ⟨h.stops row.1 row.2 hget, h.keys.2 row.1 row.2 hget⟩
  have hlookup : ∀ row ∈ db.placesOf latest.1,
      ((opened.places.select fun p => p.parentId == revisionId).map fun r => (r.1, r.2.placeRoleId)).lookup row.1 =
        if latest.2.status = .draft then some row.2.placeRoleId else none := by
    intro row hrow
    have hsame : quotationId' = quotationId := by
      simp only [quotationOf, hstored, updateQuotation, bind_eq_ok, pure_eq_ok, Prod.mk.injEq] at hheaded
      obtain ⟨_, -, _, -, -, hid⟩ := hheaded
      exact hid.symm
    rw [hsame] at hopen
    exact hopen.lookup_eq hlatest (by rw [hstored, Option.isSome_some]) hrow
  refine hiff.trans ?_
  rw [hroles, hroute]
  have hsaved : ∀ rows, (∃ places, saveRouteStops db.placeRoles false opened.places revisionId rows = .ok places) ↔
      ∃ stops, resolveRouteStops db.placeRoles
        ((opened.places.select fun p => p.parentId == revisionId).map fun r => (r.1, r.2.placeRoleId)) rows = .ok stops := by
    intro rows
    simp only [saveRouteStops, bind_eq_ok, pure_eq_ok]
    rw [exists_comm]
    simp
  rw [hsaved, resolveRouteStops_payloads h.roles hrows]
  refine forall₂_congr fun row hrow => ?_
  rw [StopAccepted, hlookup row hrow]
  refine forall₂_congr fun id hid => forall₂_congr fun role hrole => and_congr_right fun _ => or_congr_right ?_
  by_cases hdraft : latest.2.status = .draft
  · rw [if_pos hdraft, Option.bind_some, Option.mem_def.1 hid]
    simp [hdraft]
  · rw [if_neg hdraft]
    simp [hdraft]

/-! ## The route after a save -/

/-- A save brings an inactive role onto no route, and repeats one only where a stored stop is named twice. -/
def RevivesNoRole (db : QuotationDb) : Prop :=
  ∀ env p db' quotationId revisionId roleId role, saveQuotation env db p = .ok (db', quotationId, revisionId) →
    db.placeRoles.get? roleId = some role → role.active = false →
      (0 < roleCount (db'.placesOf revisionId) roleId → 0 < roleCount (routeBefore db p) roleId) ∧
        (NamedOnce db.placeRoles p.places →
          roleCount (db'.placesOf revisionId) roleId ≤ roleCount (routeBefore db p) roleId)

theorem RoutesKept.revivesNoRole {db : QuotationDb} (h : RoutesKept db) (hdb : RevisionsNumbered db) :
    RevivesNoRole db := by
  intro env p db' quotationId revisionId roleId role hsave hrole hinactive
  obtain ⟨headed, opened, dated, saved, hheaded, hopened, hdated, hsaved, rfl⟩ := saveQuotation_steps hsave
  obtain ⟨hroles, hopen⟩ := openedRoute hdb hheaded hopened
  rw [← hopen.roleCount_eq h roleId]
  simp only [saveRevisionChildren, bind_eq_ok] at hsaved
  obtain ⟨boxed, hboxed, routed, hplaces, hlines⟩ := hsaved
  obtain ⟨hboxedRoles, hboxedPlaces⟩ := saveContainers_route hdated hboxed
  have hsame : saved.places = routed.places := by
    rcases savePricingLines_spec hlines with rfl | ⟨lines, amounts, rfl⟩
    · rfl
    · rfl
  have hroute : (modifyQuotation saved quotationId fun q => { q with data := q.data.merge p }).placesOf revisionId =
      routed.places.select fun p => p.parentId == revisionId := by
    rw [← hsame]
    rfl
  rw [hroute, ← hboxedPlaces]
  unfold LcsSystem.savePlaces at hplaces
  split at hplaces
  · simp only [bind_eq_ok, pure_eq_ok] at hplaces
    obtain ⟨places, hstops, rfl⟩ := hplaces
    rw [hboxedRoles, hroles] at hstops
    exact saveRouteStops_inactive hstops hrole hinactive
  · cases hplaces
    exact ⟨id, fun _ => le_rfl⟩

theorem RevisionsNumbered.routeStep {db : QuotationDb} (h : RevisionsNumbered db) (a : RouteAction) :
    RevisionsNumbered (routeStep db a) := by
  cases a with
  | operation a => exact h.step a
  | addRole role => exact ⟨h.stored, h.positive, h.numbers, h.accepted⟩
  | editRole id role => exact ⟨h.stored, h.positive, h.numbers, h.accepted⟩

theorem office_routesKept : RoutesKept office where
  roles := PositiveKeys.empty.insert _
  keys := .empty
  stops _ row hrow := by cases hrow
  parents := .empty _ _

/-- A quotation with one stop, whose role is then archived. -/
def archivedRole : List RouteAction :=
  [.operation (.request (.save january freight)), .editRole 1 ⟨"PICKUP", "Pickup", false⟩]

/-- The body that names quotation 1. -/
def firstQuotation : QuotationPayload := { QuotationPayload.empty with id := .value 1 }

/-- A quotation that was sent before its role was archived. -/
def sentThenArchived : List RouteAction :=
  [.operation (.request (.save january freight)), .operation (.request (.send 1)), .editRole 1 ⟨"PICKUP", "Pickup", false⟩]

/-- The stored stop of quotation 1, twice. -/
def stopTwice : QuotationPayload :=
  { firstQuotation with places := .value (List.replicate 2 { stopAt 1 "Harbour" with id := .value (.id 1) }) }

end LcsSystem
