import LcsSystem.Operations.ChargeRuns
import LcsSystem.Operations.ContainerUpdates

/-!
# Containers named by charge lines

Runs of `save_charge`, `add_container` and `delete_containers`. A save checks the containers of its lines against the
order that the request resolves to, and an update leaves the charge with the order it was created for: the lines stay
inside their order in the runs whose saves resolve to the order of the charge (`OwnOrder`).
-/

namespace Relational.Table
universe u v
variable {α : Type u} {β : Type v}

/-- The rows, each seen through `f`. -/
def mapRows (t : Table α) (f : α → β) : Table β where
  rows := t.rows.map fun r => (r.1, f r.2)
  nextId := t.nextId
  bound := by
    intro r hr
    obtain ⟨q, hq, rfl⟩ := List.mem_map.1 hr
    exact t.bound q hq
  nodup := by
    rw [List.map_map]
    exact t.nodup

theorem get?_mapRows (t : Table α) (f : α → β) (id : ℕ) : (t.mapRows f).get? id = (t.get? id).map f := by
  cases h : t.get? id with
  | none =>
    refine find_eq_none.2 fun r hr => ?_
    obtain ⟨q, hq, rfl⟩ := List.mem_map.1 hr
    exact find_eq_none.1 h q hq
  | some a => exact get?_eq_some.2 (List.mem_map.2 ⟨(id, a), get?_eq_some.1 h, rfl⟩)

end Relational.Table

namespace LcsSystem
open Relational Checks Transition

/-! ## Runs -/

inductive ContainerAction
  | saveCharge (env : Env) (p : ChargePayload) (orderIdentifier : Option String)
  | addContainer (identifier : String) (p : ContainerBody)
  | deleteContainers (identifier : String) (ids : List ℕ)

/-- The database with the containers as a charge sees them. -/
def ContainerTables.orders (s : ContainerTables) : Db :=
  { s.db with containers := s.containers.mapRows fun c => ⟨c.serviceOrderId⟩ }

def ContainerAction.request (s : ContainerTables) : ContainerAction → Result ContainerTables
  | .saveCharge env p orderIdentifier => (fun r => { s with db := r.1 }) <$> LcsSystem.saveCharge env s.orders p orderIdentifier
  | .addContainer identifier p => Prod.fst <$> LcsSystem.addContainer s identifier p
  | .deleteContainers identifier ids => Prod.fst <$> LcsSystem.deleteContainers s identifier ids

def containerStep (s : ContainerTables) (a : ContainerAction) : ContainerTables := orKeep s (a.request s)

/-! ## Lines inside their order -/

/-- The lines name containers of the order. -/
def LinesOf (containers : Table StoredContainer) (orderId : ℕ) (lines : List ChargeLine) : Prop :=
  ∀ l ∈ lines, ∀ k ∈ l.serviceOrderContainerId, ∃ c ∈ containers.get? k, c.serviceOrderId = orderId

/-- Every charge line that names a container names one of the order of its charge. -/
def LinesInside (s : ContainerTables) : Prop :=
  ∀ id charge, s.db.charges.get? id = some charge → LinesOf s.containers charge.serviceOrderId charge.lines

/-- The container of a line of a body. -/
def ChargeLinePayload.container (line : ChargeLinePayload) : Option ℕ :=
  line.containerId.get?.or line.serviceOrderContainerId.get?

/-- The containers that the lines of a body name. -/
def ChargePayload.containers (p : ChargePayload) : List ℕ :=
  ((p.lineField.bind fun f => f.2.get?).getD []).filterMap ChargeLinePayload.container

/-- A save of a stored charge whose lines name containers resolves to the order of the charge. -/
def OwnOrder (s : ContainerTables) : ContainerAction → Prop
  | .saveCharge _ p orderIdentifier => p.containers ≠ [] → ∀ stored ∈ storedCharge s.orders p,
      ∀ identifier ∈ p.orderReference orderIdentifier (some stored),
      ∀ found ∈ resolveOrder s.orders identifier, found.1 = stored.2.serviceOrderId
  | _ => True

/-! ## Saving a charge -/

theorem draftOfChargeLine_container {db : Db} {orderId : ℕ} {field : String} {index : ℕ} {line : ChargeLinePayload}
    {draft : ChargeLineDraft} (h : draftOfChargeLine db orderId field index line = .ok draft) :
    draft.containerId = line.container ∧ ∀ k ∈ draft.containerId, ∃ c ∈ db.containers.get? k, c.serviceOrderId = orderId := by
  simp only [draftOfChargeLine, bind_eq_ok, check_eq_ok, pure_eq_ok] at h
  obtain ⟨_, -, _, hcontainer, rfl⟩ := h
  exact ⟨rfl, hcontainer⟩

/-- Every draft names a container of the order that its line names. -/
theorem chargeDraftsFrom_containers {db : Db} {orderId : ℕ} {field : String} {index : ℕ} {lines : List ChargeLinePayload}
    {drafts : List ChargeLineDraft} (h : chargeDraftsFrom db orderId field index lines = .ok drafts) :
    ∀ draft ∈ drafts, ∀ k ∈ draft.containerId, k ∈ lines.filterMap ChargeLinePayload.container ∧
      ∃ c ∈ db.containers.get? k, c.serviceOrderId = orderId := by
  induction lines generalizing index drafts with
  | nil =>
    cases h
    simp
  | cons line lines ih =>
    simp only [chargeDraftsFrom, bind_eq_ok, pure_eq_ok] at h
    obtain ⟨draft, hdraft, rest, hrest, rfl⟩ := h
    obtain ⟨hsame, horder⟩ := draftOfChargeLine_container hdraft
    refine List.forall_mem_cons.2 ⟨fun k hk => ⟨?_, horder k hk⟩, fun d hd k hk => ?_⟩
    · exact List.mem_filterMap.2 ⟨line, List.mem_cons_self, hsame ▸ hk⟩
    · obtain ⟨hnamed, hrow⟩ := ih hrest d hd k hk
      obtain ⟨other, hother, hcontainer⟩ := List.mem_filterMap.1 hnamed
      exact ⟨List.mem_filterMap.2 ⟨other, List.mem_cons_of_mem _ hother, hcontainer⟩, hrow⟩

/-- A row names the container of its draft. -/
theorem chargeRowsFrom_containers {lineNo : ℕ} {drafts : List ChargeLineDraft} {rows : List ChargeLine}
    (h : chargeRowsFrom lineNo drafts = .ok rows) :
    ∀ row ∈ rows, ∃ draft ∈ drafts, row.serviceOrderContainerId = draft.containerId := by
  induction drafts generalizing lineNo rows with
  | nil =>
    cases h
    simp
  | cons draft drafts ih =>
    simp only [chargeRowsFrom, bind_eq_ok, pure_eq_ok] at h
    obtain ⟨row, hrow, rest, hrest, rfl⟩ := h
    refine List.forall_mem_cons.2 ⟨⟨draft, List.mem_cons_self, ?_⟩, fun r hr => ?_⟩
    · simp only [ChargeLineDraft.row, bind_eq_ok, pure_eq_ok] at hrow
      obtain ⟨_, -, _, -, _, -, _, -, _, -, _, -, rfl⟩ := hrow
      rfl
    · obtain ⟨d, hd, heq⟩ := ih hrest r hr
      exact ⟨d, List.mem_cons_of_mem _ hd, heq⟩

theorem chargePricing_containers {db : Db} {orderId : ℕ} {field : String} {lines : List ChargeLinePayload}
    {amounts : Amounts} {rows : List ChargeLine} (h : chargePricing db orderId field lines = .ok (amounts, rows)) :
    ∀ row ∈ rows, ∀ k ∈ row.serviceOrderContainerId, k ∈ lines.filterMap ChargeLinePayload.container ∧
      ∃ c ∈ db.containers.get? k, c.serviceOrderId = orderId := by
  simp only [chargePricing, bind_eq_ok, pure_eq_ok, Prod.mk.injEq] at h
  obtain ⟨drafts, hdrafts, rows', hrows, _, -, -, rfl⟩ := h
  intro row hrow k hk
  obtain ⟨draft, hdraft, heq⟩ := chargeRowsFrom_containers hrows row hrow
  exact chargeDraftsFrom_containers hdrafts draft hdraft k (heq ▸ hk)

/-- The lines that a body sends name containers of the order that the request resolves to. -/
theorem sentLines_containers {s : ContainerTables} {p : ChargePayload} {orderId : ℕ} {charge : ServiceOrderCharge}
    {r : Amounts × List ChargeLine} (h : sentLines s.orders p orderId charge = .ok r) :
    r.2 = charge.lines ∨ ∀ row ∈ r.2, ∀ k ∈ row.serviceOrderContainerId, k ∈ p.containers ∧
      ∃ c ∈ s.containers.get? k, c.serviceOrderId = orderId := by
  unfold sentLines at h
  split at h
  · next field rows hfield =>
    simp only [bind_eq_ok] at h
    obtain ⟨rows', hrows, hpricing⟩ := h
    have hsent : rows.get?.getD [] = rows' := by
      cases rows with
      | value ls =>
        simp only [rowsOf, bind_eq_ok, pure_eq_ok] at hrows
        obtain ⟨_, -, rfl⟩ := hrows
        rfl
      | malformed => cases hrows
      | absent => exact Except.ok.inj hrows
      | blank => exact Except.ok.inj hrows
    refine .inr fun row hrow k hk => ?_
    obtain ⟨hnamed, c, hc, horder⟩ := chargePricing_containers hpricing row hrow k hk
    rw [ContainerTables.orders, Option.mem_def, Table.get?_mapRows, Option.map_eq_some_iff] at hc
    obtain ⟨stored, hstored, rfl⟩ := hc
    refine ⟨?_, stored, hstored, horder⟩
    rw [ChargePayload.containers, hfield, Option.bind_some, hsent]
    exact hnamed
  · cases h
    exact .inl rfl

/-- What a charge holds after a body: its own lines, or lines of the order that the request resolves to. -/
theorem applyChargeBody_lines {s : ContainerTables} {p : ChargePayload} {orderId : ℕ} {charge charge' : ServiceOrderCharge}
    (h : applyChargeBody s.orders p orderId charge = .ok charge') :
    charge'.serviceOrderId = charge.serviceOrderId ∧ (charge'.lines = charge.lines ∨
      ∀ row ∈ charge'.lines, ∀ k ∈ row.serviceOrderContainerId, k ∈ p.containers ∧
        ∃ c ∈ s.containers.get? k, c.serviceOrderId = orderId) := by
  simp only [applyChargeBody, bind_eq_ok, pure_eq_ok] at h
  obtain ⟨⟨amounts, lines⟩, hlines, rfl⟩ := h
  exact ⟨rfl, sentLines_containers hlines⟩

theorem linesInside_saveCharge {s : ContainerTables} {env : Env} {p : ChargePayload} {orderIdentifier : Option String}
    {r : Db × ℕ} (hinside : LinesInside s) (hown : OwnOrder s (.saveCharge env p orderIdentifier))
    (h : saveCharge env s.orders p orderIdentifier = .ok r) : LinesInside { s with db := r.1 } := by
  simp only [saveCharge, bind_eq_ok, require_eq_ok, check_eq_ok] at h
  obtain ⟨_, -, currency, -, identifier, hidentifier, ⟨orderId, order⟩, hresolve, _, -, _, -, h⟩ := h
  cases hstored : storedCharge s.orders p with
  | none =>
    simp only [hstored, bind_eq_ok, pure_eq_ok] at h
    obtain ⟨⟨sequences, draft⟩, hnew, charge, hbody, rfl⟩ := h
    simp only [newCharge, bind_eq_ok, pure_eq_ok, Prod.mk.injEq] at hnew
    obtain ⟨_, -, rfl, rfl⟩ := hnew
    obtain ⟨horder, hlines⟩ := applyChargeBody_lines hbody
    refine Table.forall_insert hinside ?_
    rw [horder]
    rcases hlines with hlines | hlines
    · rw [hlines]
      intro l hl
      cases hl
    · exact fun row hrow k hk => (hlines row hrow k hk).2
  | some stored =>
    simp only [hstored, bind_eq_ok, pure_eq_ok] at h
    obtain ⟨charge, hbody, rfl⟩ := h
    have hget : s.db.charges.get? stored.1 = some stored.2 := (Table.bind_get?_eq_some.1 hstored).2
    obtain ⟨horder, hlines⟩ := applyChargeBody_lines hbody
    refine Table.forall_modify hget hinside ?_
    rw [horder]
    rcases hlines with hlines | hlines
    · rw [hlines]
      exact hinside stored.1 stored.2 hget
    · intro row hrow k hk
      obtain ⟨hnamed, c, hc, hcontainer⟩ := hlines row hrow k hk
      rw [hstored] at hidentifier
      have hsame := hown (List.ne_nil_of_mem hnamed) stored hstored identifier hidentifier _ hresolve
      exact ⟨c, hc, hcontainer.trans hsame⟩

/-! ## Adding and deleting containers -/

/-- Lines stay inside their order where the containers they name stay, each with its order. -/
theorem LinesOf.mono {old new : Table StoredContainer} {orderId : ℕ} {lines : List ChargeLine}
    (h : LinesOf old orderId lines)
    (hkept : ∀ l ∈ lines, ∀ k ∈ l.serviceOrderContainerId, ∀ c, old.get? k = some c →
      ∃ c', new.get? k = some c' ∧ c'.serviceOrderId = c.serviceOrderId) : LinesOf new orderId lines := by
  intro l hl k hk
  obtain ⟨c, hc, horder⟩ := h l hl k hk
  obtain ⟨c', hc', hsame⟩ := hkept l hl k hk c hc
  exact ⟨c', hc', hsame.trans horder⟩

/-- A write keeps every container, with its order. -/
theorem ContainerWrite.kept {s : ContainerTables} {p : ContainerBody} {orderId : ℕ}
    {existing : Option (ℕ × StoredContainer)} {row : StoredContainer} (hwrite : ContainerWrite s p orderId existing row)
    {k : ℕ} {c : StoredContainer} (hc : s.containers.get? k = some c) :
    ∃ c', (storeContainer s.containers existing row).1.get? k = some c' ∧ c'.serviceOrderId = c.serviceOrderId := by
  obtain ⟨typeId, requirement, net, gross, -, -, hrow⟩ := hwrite.row_eq
  cases existing with
  | none => exact ⟨c, Table.get?_insert_of_some hc, rfl⟩
  | some found =>
    rw [storeContainer, Table.get?_modify, hc]
    split
    · next hk =>
      have hfound : s.containers.get? found.1 = some found.2 := by
        have hexisting := hwrite.existing_ok
        unfold existingContainer at hexisting
        split at hexisting
        · cases hexisting
        · simp only [bind_eq_ok, require_eq_ok, pure_eq_ok, Option.some.injEq] at hexisting
          obtain ⟨c', hc', rfl⟩ := hexisting
          exact (Option.filter_eq_some_iff.1 hc').1
      rw [hk, hfound, Option.some.injEq] at hc
      exact ⟨row, rfl, by rw [hrow, ← hc]; rfl⟩
    · exact ⟨c, rfl, rfl⟩

theorem linesInside_addContainer {s s' : ContainerTables} {identifier : String} {p : ContainerBody} {id : ℕ}
    (hinside : LinesInside s) (h : addContainer s identifier p = .ok (s', id)) : LinesInside s' := by
  obtain ⟨orderId, existing, row, types, hwrite, rfl, -⟩ := addContainer_spec h
  exact fun i charge hcharge => (hinside i charge hcharge).mono fun _ _ _ _ _ hc => hwrite.kept hc

theorem mem_namedContainers {db : Db} {id k : ℕ} {charge : ServiceOrderCharge} {l : ChargeLine}
    (hcharge : db.charges.get? id = some charge) (hl : l ∈ charge.lines) (hk : l.serviceOrderContainerId = some k) :
    k ∈ namedContainers db := by
  refine List.mem_append_left _ (List.mem_flatMap.2 ⟨charge, Table.mem_values.2 ⟨id, hcharge⟩, ?_⟩)
  exact List.mem_filterMap.2 ⟨l, hl, hk⟩

theorem linesInside_deleteContainers {s s' : ContainerTables} {identifier : String} {ids : List ℕ} {n : ℕ}
    (hinside : LinesInside s) (h : deleteContainers s identifier ids = .ok (s', n)) : LinesInside s' := by
  simp only [deleteContainers, bind_eq_ok, require_eq_ok, check_eq_ok, pure_eq_ok, Prod.mk.injEq] at h
  obtain ⟨⟨orderId, order⟩, -, _, -, _, hfree, rfl, -⟩ := h
  refine fun i charge hcharge => (hinside i charge hcharge).mono fun l hl k hk c hc => ⟨c, ?_, rfl⟩
  rw [Table.get?_erase, hc, Option.filter_eq_some_iff]
  refine ⟨rfl, ?_⟩
  rw [Bool.not_eq_true']
  by_contra hselected
  rw [Bool.not_eq_false] at hselected
  have hmem : (k, c) ∈ selectedContainers s orderId ids :=
    List.mem_filter.2 ⟨Table.get?_eq_some.1 hc, hselected⟩
  exact hfree _ hmem (mem_namedContainers hcharge hl hk)

/-! ## Runs stay inside -/

theorem linesInside_step (s : ContainerTables) (a : ContainerAction) (hinside : LinesInside s) (hown : OwnOrder s a) :
    LinesInside (containerStep s a) := by
  unfold containerStep
  cases h : a.request s with
  | error e => exact hinside
  | ok s' =>
    show LinesInside s'
    cases a with
    | saveCharge env p orderIdentifier =>
      simp only [ContainerAction.request, map_eq_ok] at h
      obtain ⟨r, hsave, rfl⟩ := h
      exact linesInside_saveCharge hinside hown hsave
    | addContainer identifier p =>
      simp only [ContainerAction.request, map_eq_ok] at h
      obtain ⟨⟨s₁, id⟩, hadd, rfl⟩ := h
      exact linesInside_addContainer hinside hadd
    | deleteContainers identifier ids =>
      simp only [ContainerAction.request, map_eq_ok] at h
      obtain ⟨⟨s₁, n⟩, hdelete, rfl⟩ := h
      exact linesInside_deleteContainers hinside hdelete

/-- **Charge lines stay inside their order** in the runs whose saves resolve to the order of the charge. -/
theorem run_linesInside (s : ContainerTables) (as : List ContainerAction) (hinside : LinesInside s)
    (hown : Meets containerStep OwnOrder s as) : LinesInside (run containerStep s as) :=
  run_invariant_of_meets LinesInside linesInside_step hinside hown

/-! ## Two orders -/

/-- Two orders, each with a container of its own number. -/
def twoOrders : ContainerTables :=
  withContainers
    { Db.fresh usd with
      serviceOrders := (Table.empty.insert ⟨"SO-1", 1, usd, false⟩).insert ⟨"SO-2", 1, usd, false⟩ }
    [preparedContainer 1 none, preparedContainer 2 none]

/-- A body that names an order and a container. -/
def chargeNaming (id : Field ℕ) (jobNo : String) (container : ℕ) : ChargePayload :=
  { ChargePayload.empty with
    id := id
    jobNo := .value jobNo
    lines := .value [{ ChargeLinePayload.empty with unitPrice := .value 100, containerId := .value container }] }

/-- A charge of the first order, edited with a container of `jobNo`. -/
def editedCharge (jobNo : String) (container : ℕ) : List ContainerAction :=
  [.saveCharge january (chargeNaming .absent "SO-1" 1) none, .saveCharge january (chargeNaming (.value 1) jobNo container) none]

theorem linesInside_twoOrders : LinesInside twoOrders := by
  intro id charge hcharge
  cases hcharge

/-- The charge stays with its order. -/
theorem run_linesInside_edited : LinesInside (run containerStep twoOrders (editedCharge "SO-1" 1)) := by
  refine run_linesInside _ _ linesInside_twoOrders ⟨fun _ stored hstored => ?_, fun _ stored hstored identifier hid found
    hfound => ?_, trivial⟩
  · cases hstored
  · have hnew : (resolveOrder (containerStep twoOrders (.saveCharge january (chargeNaming .absent "SO-1" 1) none)).orders
        "SO-1").map Prod.fst = some 1 := by decide +kernel
    have hcharge : ((storedCharge (containerStep twoOrders (.saveCharge january (chargeNaming .absent "SO-1" 1) none)).orders
        (chargeNaming (.value 1) "SO-1" 1)).map fun c => c.2.serviceOrderId) = some 1 := by decide +kernel
    obtain rfl : "SO-1" = identifier := Option.some.inj hid
    rw [Option.mem_def] at hstored hfound
    rw [hstored, Option.map_some, Option.some.injEq] at hcharge
    rw [hfound, Option.map_some, Option.some.injEq] at hnew
    exact hnew.trans hcharge.symm

/-- A line of a charge of the first order names a container of the second. -/
theorem line_outside_its_order :
    LinesInside twoOrders ∧ ¬LinesInside (run containerStep twoOrders (editedCharge "SO-2" 2)) := by
  refine ⟨linesInside_twoOrders, fun h => ?_⟩
  have hcharge : (((run containerStep twoOrders (editedCharge "SO-2" 2)).db.charges.get? 1).map fun c =>
      (c.serviceOrderId, c.lines.map fun l => l.serviceOrderContainerId)) = some (1, [some 2]) := by decide +kernel
  have hcontainer : (((run containerStep twoOrders (editedCharge "SO-2" 2)).containers.get? 2).map
      StoredContainer.serviceOrderId) = some 2 := by decide +kernel
  obtain ⟨charge, hget, heq⟩ := Option.map_eq_some_iff.1 hcharge
  obtain ⟨horder, hlines⟩ := Prod.mk.inj heq
  obtain ⟨l, hl, hnames⟩ := List.mem_map.1 (hlines ▸ List.mem_singleton_self (some 2))
  obtain ⟨c, hc, hsame⟩ := h 1 charge hget l hl 2 hnames
  rw [Option.mem_def.1 hc, Option.map_some, Option.some.injEq] at hcontainer
  rw [horder, hcontainer] at hsame
  cases hsame

end LcsSystem
