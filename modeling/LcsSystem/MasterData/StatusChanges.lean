import LcsSystem.Auth.Models
import LcsSystem.MasterData.StatusPolicies

/-!
# Status changes and their audit events

`change_status` of `src/backend/app/modules/master_data/status_service.py` (49-56, 224-393). The writer of a store commits
the new status; the audit event is written behind it and has a commit of its own.

| here                | there                                                                                 |
|---------------------|---------------------------------------------------------------------------------------|
| `checkChange`       | the checks of `change_status`, up to the choice of the writer                           |
| `applied`           | the status that a writer of `_APPLIERS` stores                                          |
| `StatusCall.writer` | what a writer refuses by rules of its own, or why its commit fails                      |
| `StatusCall.behind` | what fails behind that commit: reading back, the cache, the reload of the policies      |
| `StatusCall.audit`  | what fails at the audit event or its commit                                             |

A status that is `NULL` is read as the empty text. Actor, time and request of an event are left out.
-/

namespace LcsSystem

structure StatusEvent where
  eventType : String
  entityType : String
  entityId : ℕ
  action : String
  before : String
  after : String
  reason : Option String
  deriving DecidableEq

/-- The stored statuses, by store, collection and id, and the audit log. -/
structure StatusDb where
  statuses : StatusStore × String × ℕ → Option String
  audit : List StatusEvent

structure StatusCall where
  collection : String
  itemId : String
  target : String
  reason : Option String := none
  /-- `context.has_permission`. -/
  has : String → Bool
  writer : Option AuthError := none
  behind : Option AuthError := none
  audit : Option AuthError := none

/-- Where a record is kept: only the reference and the generic store tell their collections apart. -/
def StatusPolicy.recordKey (policy : StatusPolicy) (collection : String) (id : ℕ) : StatusStore × String × ℕ :=
  (policy.store, if policy.store ∈ [.reference, .generic] then collection else "", id)

/-! ## The checks -/

/-- The message of a loader that finds nothing. -/
def StatusStore.notFound : StatusStore → String
  | .reference | .generic => "Record not found."
  | .account => "Account not found."
  | .financialAccount => "Financial account not found."
  | .postingRule => "Posting rule not found."
  | .sequence => "Document sequence not found."
  | .period => "Accounting period not found."
  | .order => "Service order not found."
  | .charge => "Service charge not found."
  | .document => "Financial document not found."
  | .journal => "Journal not found."
  | .quotation => "Quotation revision not found."
  | .user => "User not found."
  | .role => "Role not found."

def mayPerform (has : String → Bool) (transition : StatusTransition) : Bool :=
  transition.permissions.isEmpty || transition.permissions.any has

/-- `_record_id`, for plain digits. -/
def recordId? (value : String) : Option ℕ :=
  let digits := (strip value).toList
  if digits ≠ [] ∧ digits.all Char.isDigit = true then some (digits.foldl (fun n c => 10 * n + (c.toNat - '0'.toNat)) 0)
  else none

/-- `str(reason or "").strip()`. -/
def StatusCall.reasonText (call : StatusCall) : String := strip (call.reason.getD "")

structure CheckedChange where
  policy : StatusPolicy
  recordId : ℕ
  current : String
  canonical : String
  /-- There is one where the normalised status changes. -/
  transition : Option StatusTransition
  deriving DecidableEq

/-- The transition that a call performs. -/
def checkTransition (call : StatusCall) (policy : StatusPolicy) (current canonical : String) : AuthResult StatusTransition :=
  match policy.transition? current canonical with
  | none =>
    .error (.other (.invalidState ("Cannot change status from " ++ (if current = "" then "unknown" else current) ++ " to " ++
      canonical ++ ".")))
  | some transition =>
    if mayPerform call.has transition = false then
      .error (.accessDenied ("Missing permission: " ++ String.intercalate "," transition.permissions))
    else if transition.kind = .command then
      .error (.conflict "TRANSITION_REQUIRES_COMMAND" ("'" ++ canonical ++ "' is applied by the " ++ transition.action ++
        " action, not by a direct status change.") [])
    else if transition.reason = true ∧ call.reasonText = "" then
      .error (.invalid "A reason is required." [("reason", "Enter a reason.")])
    else .ok transition

def checkChange (db : StatusDb) (call : StatusCall) : AuthResult CheckedChange :=
  match statusPolicy? call.collection with
  | none => .error (.notFound ("No status policy is defined for '" ++ call.collection ++ "'."))
  | some policy =>
    match policy.canonical? call.target with
    | none =>
      .error (.invalid ("Unknown status '" ++ call.target ++ "'.")
        [("status", "Allowed values: " ++ String.intercalate ", " policy.statuses ++ ".")])
    | some canonical =>
      match recordId? call.itemId with
      | none => .error (.notFound "Record not found.")
      | some id =>
        match db.statuses (policy.recordKey call.collection id) with
        | none => .error (.notFound policy.store.notFound)
        | some current =>
          if normalizedStatus current = normalizedStatus canonical then .ok ⟨policy, id, current, canonical, none⟩
          else do
            let transition ← checkTransition call policy current canonical
            return ⟨policy, id, current, canonical, some transition⟩

/-! ## The writers -/

/-- `ORDER_STATUS`. -/
def orderStatuses : List (String × String) :=
  [("active", "ACTIVE"), ("inactive", "INACTIVE"), ("finished", "FINISHED"), ("completed", "FINISHED"),
    ("complete", "FINISHED")]

/-- `normalize_order_status`. -/
def orderStatusOf (value current : String) : String :=
  if strip value = "" then current
  else (orderStatuses.lookup (lower (strip value))).getD
    (if lower (strip value) ∈ ["cancelled", "canceled", "closed", "inactive", "voided"] then "INACTIVE" else "ACTIVE")

/-- The status that the writer of a store leaves. -/
def applied (collection : String) (current target : String) : StatusStore → AuthResult String
  | .reference | .generic | .sequence => .ok target
  | .account | .financialAccount | .user | .role => .ok (upper target)
  | .postingRule => .ok (upper (strip target))
  | .period =>
    if normalizedStatus target = "OPEN" then .ok "OPEN"
    else .error (.other (.invalidState "A period is closed through the close action."))
  | .order => .ok (orderStatusOf target current)
  | .charge | .document | .journal | .quotation =>
    .error (.notFound ("'" ++ collection ++ "' does not support direct status changes."))

namespace StatusDb

def setStatus (db : StatusDb) (key : StatusStore × String × ℕ) (status : String) : StatusDb :=
  { db with statuses := Function.update db.statuses key (some status) }

def record (db : StatusDb) (event : StatusEvent) : StatusDb := { db with audit := db.audit ++ [event] }

end StatusDb

/-- The event of a transition; an empty reason is none. -/
def statusEvent (call : StatusCall) (policy : StatusPolicy) (id : ℕ) (transition : StatusTransition) (before after : String) :
    StatusEvent :=
  ⟨transition.eventType, policy.entityType, id, transition.action, before, after,
    if call.reasonText = "" then none else some call.reasonText⟩

/-- `change_status`: the states that its commits leave, in turn, and how it ends. -/
def changeStatus (db : StatusDb) (call : StatusCall) : List StatusDb × AuthResult PUnit.{1} :=
  match checkChange db call with
  | .error e => ([], .error e)
  | .ok change =>
    match applied call.collection change.current change.canonical change.policy.store with
    | .error e => ([], .error e)
    | .ok status =>
      let changed := db.setStatus (change.policy.recordKey call.collection change.recordId) status
      match call.writer, call.behind, change.transition, call.audit with
      | some e, _, _, _ => ([], .error e)
      | none, some e, _, _ => ([changed], .error e)
      | none, none, none, _ => ([changed], .ok ⟨⟩)
      | none, none, some _, some e => ([changed], .error e)
      | none, none, some transition, none =>
        ([changed, changed.record (statusEvent call change.policy change.recordId transition change.current change.canonical)],
          .ok ⟨⟩)

/-! ## What is promised -/

/-- The call has changed the one status by a transition that the caller may perform, and recorded it once. -/
def Audited (db : StatusDb) (call : StatusCall) (s : StatusDb) : Prop :=
  ∃ policy id current status transition, statusPolicy? call.collection = some policy ∧
    recordId? call.itemId = some id ∧ db.statuses (policy.recordKey call.collection id) = some current ∧
    policy.transition? current status = some transition ∧ transition.kind = .status ∧
    mayPerform call.has transition = true ∧ (transition.reason = true → call.reasonText ≠ "") ∧
    s = (db.setStatus (policy.recordKey call.collection id) status).record
      (statusEvent call policy id transition current status)

/-- Each committed state has the change with its event or neither, and a failed call leaves neither. -/
def AuditedTogether (db : StatusDb) (call : StatusCall) : Prop :=
  (∀ s ∈ (changeStatus db call).1, s = db ∨ Audited db call s) ∧
    ∀ e, (changeStatus db call).2 = .error e → ∀ s ∈ (changeStatus db call).1, s = db

/-- The state that the call leaves at its end has the change with its event or neither, and after a failure neither. -/
def AuditedAtEnd (db : StatusDb) (call : StatusCall) : Prop :=
  ((changeStatus db call).1.getLastD db = db ∨ Audited db call ((changeStatus db call).1.getLastD db)) ∧
    ∀ e, (changeStatus db call).2 = .error e → (changeStatus db call).1.getLastD db = db

/-- The call passes its checks, its writer accepts, and the status that it stores is another text. -/
def StoresOther (db : StatusDb) (call : StatusCall) : Prop :=
  ∃ change status, checkChange db call = .ok change ∧
    applied call.collection change.current change.canonical change.policy.store = .ok status ∧
    call.writer = none ∧ status ≠ change.current

/-- The status changes by more than its spelling. -/
def StatusMoves (db : StatusDb) (call : StatusCall) : Prop :=
  ∃ change, checkChange db call = .ok change ∧ normalizedStatus change.current ≠ normalizedStatus change.canonical

/-! ## The written status -/

theorem applied_of_entry : ∀ e ∈ policyEntries, ∀ status ∈ e.2.statuses, strip status ≠ "" ∧
    ∀ written ∈ (applied "" "" status e.2.store).toOption, written = status := by
  decide +kernel

theorem applied_congr {collection other current before target : String} {store : StatusStore} {written : String}
    (htarget : strip target ≠ "") (h : applied collection current target store = .ok written) :
    applied other before target store = .ok written := by
  cases store with
  | order =>
    simp only [applied, orderStatusOf, if_neg htarget] at h ⊢
    exact h
  | charge | document | journal | quotation => cases h
  | _ => exact h

/-- A writer stores the canonical spelling. -/
theorem applied_eq {collection current canonical written : String} {policy : StatusPolicy}
    (hpolicy : statusPolicy? collection = some policy) (hmem : canonical ∈ policy.statuses)
    (h : applied collection current canonical policy.store = .ok written) : written = canonical := by
  obtain ⟨hstrip, hwritten⟩ := applied_of_entry _ (mem_policyEntries hpolicy) canonical hmem
  refine hwritten written ?_
  rw [applied_congr hstrip h]
  rfl

/-! ## What the checks let through -/

theorem of_checkTransition {call : StatusCall} {policy : StatusPolicy} {current canonical : String}
    {transition : StatusTransition} (h : checkTransition call policy current canonical = .ok transition) :
    policy.transition? current canonical = some transition ∧ transition.kind = .status ∧
      mayPerform call.has transition = true ∧ (transition.reason = true → call.reasonText ≠ "") := by
  unfold checkTransition at h
  split at h
  · cases h
  next found hfound =>
    split at h
    · cases h
    next hpermitted =>
      split at h
      · cases h
      next hkind =>
        split at h
        · cases h
        next hreason =>
          cases h
          refine ⟨hfound, ?_, ?_, fun hrequired hempty => hreason ⟨hrequired, hempty⟩⟩
          · cases hk : transition.kind with
            | status => rfl
            | command => exact absurd hk hkind
          · simpa using hpermitted

/-- What a call that passed its checks has found. -/
structure Checked (db : StatusDb) (call : StatusCall) (change : CheckedChange) : Prop where
  policy : statusPolicy? call.collection = some change.policy
  canonical : change.canonical ∈ change.policy.statuses
  id : recordId? call.itemId = some change.recordId
  stored : db.statuses (change.policy.recordKey call.collection change.recordId) = some change.current
  spelled : change.transition = none ↔ normalizedStatus change.current = normalizedStatus change.canonical
  allowed : ∀ transition, change.transition = some transition →
    change.policy.transition? change.current change.canonical = some transition ∧ transition.kind = .status ∧
      mayPerform call.has transition = true ∧ (transition.reason = true → call.reasonText ≠ "")

theorem of_checkChange {db : StatusDb} {call : StatusCall} {change : CheckedChange} (h : checkChange db call = .ok change) :
    Checked db call change := by
  unfold checkChange at h
  split at h
  · cases h
  next policy hpolicy =>
    split at h
    · cases h
    next canonical hcanonical =>
      have hmem : canonical ∈ policy.statuses := List.mem_of_find?_eq_some hcanonical
      split at h
      · cases h
      next id hid =>
        split at h
        · cases h
        next current hcurrent =>
          split at h
          next hsame =>
            cases h
            refine ⟨hpolicy, hmem, hid, hcurrent, ⟨fun _ => hsame, fun _ => rfl⟩, ?_⟩
            rintro transition ⟨⟩
          next hdiffers =>
            obtain ⟨transition, htransition, h⟩ := Checks.bind_eq_ok.1 h
            cases h
            refine ⟨hpolicy, hmem, hid, hcurrent, ⟨?_, fun hsame => absurd hsame hdiffers⟩, ?_⟩
            · rintro ⟨⟩
            · rintro found ⟨⟩
              exact of_checkTransition htransition

/-! ## The call -/

section
variable {db : StatusDb} {call : StatusCall} {change : CheckedChange} {status : String}

/-- The call comes to the commit of its writer. -/
structure Written (db : StatusDb) (call : StatusCall) (change : CheckedChange) (status : String) : Prop where
  checked : checkChange db call = .ok change
  applied : applied call.collection change.current change.canonical change.policy.store = .ok status
  accepted : call.writer = none

theorem changeStatus_refused (h : ¬∃ change status, Written db call change status) : (changeStatus db call).1 = [] := by
  unfold changeStatus
  split
  · rfl
  next change hchecked =>
    split
    · rfl
    next status happlied =>
      cases hwriter : call.writer with
      | some e => rfl
      | none => exact absurd ⟨change, status, hchecked, happlied, hwriter⟩ h

/-- What the commit of the writer leaves. -/
def changedBy (db : StatusDb) (call : StatusCall) (change : CheckedChange) (status : String) : StatusDb :=
  db.setStatus (change.policy.recordKey call.collection change.recordId) status

theorem changeStatus_written (h : Written db call change status) :
    changeStatus db call =
      match call.behind, change.transition, call.audit with
      | some e, _, _ => ([changedBy db call change status], .error e)
      | none, none, _ => ([changedBy db call change status], .ok ⟨⟩)
      | none, some _, some e => ([changedBy db call change status], .error e)
      | none, some transition, none =>
        ([changedBy db call change status, (changedBy db call change status).record
          (statusEvent call change.policy change.recordId transition change.current change.canonical)], .ok ⟨⟩) := by
  simp only [changeStatus, h.checked, h.applied, h.accepted, changedBy]
  cases call.behind <;> cases change.transition <;> cases call.audit <;> rfl

theorem Written.status_eq (h : Written db call change status) : status = change.canonical :=
  have hchecked := of_checkChange h.checked
  applied_eq hchecked.policy hchecked.canonical h.applied

theorem changedBy_eq (h : Written db call change status) (hsame : status = change.current) :
    changedBy db call change status = db := by
  rw [changedBy, StatusDb.setStatus, hsame, ← (of_checkChange h.checked).stored, Function.update_eq_self]

theorem changedBy_ne (h : Written db call change status) (hother : status ≠ change.current) :
    changedBy db call change status ≠ db := by
  intro heq
  have hstored := (of_checkChange h.checked).stored
  rw [← heq] at hstored
  simp only [changedBy, StatusDb.setStatus, Function.update_self] at hstored
  exact hother (Option.some.inj hstored)

/-- A status that changes without an event is not audited. -/
theorem not_audited_changedBy : ¬Audited db call (changedBy db call change status) := by
  rintro ⟨policy, id, current, other, transition, -, -, -, -, -, -, -, heq⟩
  have hlength : db.audit.length = (db.audit ++ [_]).length := congrArg (fun s => s.audit.length) heq
  rw [List.length_append, List.length_singleton] at hlength
  omega

/-- The same text is stored again, and nothing is recorded. -/
theorem changeStatus_same (h : Written db call change status) (hsame : status = change.current) :
    (changeStatus db call).1 = [db] := by
  have hspelled : change.transition = none := by
    rw [(of_checkChange h.checked).spelled, ← hsame, h.status_eq]
  rw [changeStatus_written h, hspelled, changedBy_eq h hsame]
  cases call.behind <;> rfl

theorem eq_of_not_storesOther (h : ¬StoresOther db call) : ∀ s ∈ (changeStatus db call).1, s = db := by
  by_cases hwritten : ∃ change status, Written db call change status
  · obtain ⟨change, status, hwritten⟩ := hwritten
    by_cases hsame : status = change.current
    · rw [changeStatus_same hwritten hsame]
      exact fun s hs => List.mem_singleton.1 hs
    · exact absurd ⟨change, status, hwritten.checked, hwritten.applied, hwritten.accepted, hsame⟩ h
  · rw [changeStatus_refused hwritten]
    exact fun s hs => absurd hs List.not_mem_nil

/-- A move with its event is audited. -/
theorem audited_of_moved (h : Written db call change status) {transition : StatusTransition}
    (htransition : change.transition = some transition) :
    Audited db call ((changedBy db call change status).record
      (statusEvent call change.policy change.recordId transition change.current change.canonical)) := by
  have hchecked := of_checkChange h.checked
  obtain ⟨hfound, hkind, hpermitted, hreason⟩ := hchecked.allowed transition htransition
  refine ⟨change.policy, change.recordId, change.current, change.canonical, transition, hchecked.policy, hchecked.id,
    hchecked.stored, hfound, hkind, hpermitted, hreason, ?_⟩
  rw [changedBy, h.status_eq]

end

/-! ## The two laws -/

section
variable {db : StatusDb} {call : StatusCall}

theorem auditedTogether_iff : AuditedTogether db call ↔ ¬StoresOther db call := by
  constructor
  · rintro ⟨htogether, -⟩ ⟨change, status, hchecked, happlied, haccepted, hother⟩
    have hwritten : Written db call change status := ⟨hchecked, happlied, haccepted⟩
    have hmem : changedBy db call change status ∈ (changeStatus db call).1 := by
      rw [changeStatus_written hwritten]
      cases call.behind <;> cases change.transition <;> cases call.audit <;> exact List.mem_cons_self
    rcases htogether _ hmem with heq | haudited
    · exact changedBy_ne hwritten hother heq
    · exact not_audited_changedBy haudited
  · intro h
    exact ⟨fun s hs => .inl (eq_of_not_storesOther h s hs), fun _ _ => eq_of_not_storesOther h⟩

theorem auditedAtEnd_iff :
    AuditedAtEnd db call ↔ (StoresOther db call → StatusMoves db call ∧ call.behind = none ∧ call.audit = none) := by
  by_cases hstores : StoresOther db call
  · obtain ⟨change, status, hchecked, happlied, haccepted, hother⟩ := id hstores
    have hwritten : Written db call change status := ⟨hchecked, happlied, haccepted⟩
    have hne := changedBy_ne hwritten hother
    have hmoves : StatusMoves db call ↔ change.transition ≠ none := by
      rw [Ne, (of_checkChange hchecked).spelled]
      constructor
      · rintro ⟨other, hother, hmoved⟩
        rw [hchecked] at hother
        cases hother
        exact hmoved
      · exact fun hmoved => ⟨change, hchecked, hmoved⟩
    rw [AuditedAtEnd, changeStatus_written hwritten, hmoves, forall_prop_of_true hstores]
    have hnot : ¬(changedBy db call change status = db ∨ Audited db call (changedBy db call change status)) :=
      fun h => h.elim hne not_audited_changedBy
    cases hbehind : call.behind with
    | some e => simp [hne]
    | none =>
      cases htransition : change.transition with
      | none => simp [hnot]
      | some transition =>
        cases haudit : call.audit with
        | some e => simp [hne]
        | none => simp [audited_of_moved hwritten htransition]
  · have hsame := eq_of_not_storesOther hstores
    have hend : (changeStatus db call).1.getLastD db = db := by
      rw [List.getLastD_eq_getLast?]
      cases hlast : (changeStatus db call).1.getLast? with
      | none => rfl
      | some s => exact hsame s (List.mem_of_getLast? hlast)
    exact ⟨fun _ h => absurd h hstores, fun _ => ⟨.inl hend, fun _ _ => hend⟩⟩

end

/-- A company that was saved as `active`, and an empty log. -/
def respelledDb : StatusDb := ⟨fun key => if key = (.generic, "companies", 1) then some "active" else none, []⟩

/-- A caller without any permission asks for `Active`. -/
def respellCall : StatusCall := { collection := "companies", itemId := "1", target := "Active", has := fun _ => false }

end LcsSystem
