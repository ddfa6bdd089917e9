import LcsSystem.MasterData.VersionRuns
import LcsSystem.Lib.Transactions

/-!
# Publishes between edits

`publish` reads the live configuration with three statements and checks it before it waits for the publish lock
(`src/backend/app/modules/master_data/config_versions.py:500-565`); under the lock it stores what it has read.
Edits of the configuration commit on their own and do not take the lock.
-/

namespace LcsSystem
open Relational Checks Transactions Transition

inductive PublishRequest
  | publish (changeNote : Option String) (userId : Option ℕ)
  | edit (f : Configuration → Configuration)

/-- A publish by its next statement, with what the statements before have read. -/
inductive PublishTxn
  | readTabs (changeNote : Option String) (userId : Option ℕ)
  | readTabGroups (changeNote : Option String) (userId : Option ℕ) (tabs : List (ℕ × ComponentTab))
  | readMemberships (changeNote : Option String) (userId : Option ℕ) (tabs : List (ℕ × ComponentTab))
      (tabGroups : List ((ℕ × ComponentTabGroup) × ComponentGroup))
  | checkLive (changeNote : Option String) (userId : Option ℕ) (snapshot : Snapshot)
  | lockPublish (changeNote : Option String) (userId : Option ℕ) (snapshot : Snapshot)
  | insert (changeNote : Option String) (userId : Option ℕ) (snapshot : Snapshot)
  | edit (f : Configuration → Configuration)

/-- What was committed: the live configuration after an edit, or a new version. -/
inductive ConfigEvent
  | edited (live : Snapshot)
  | published (versionNo : ℕ) (snapshot : Snapshot)
  deriving DecidableEq

section
variable (hash : Snapshot → String)

/-- The statements of a publish; the only lock is `PUBLISH_LOCK_KEY`. -/
def publishProtocol : Protocol ConfigDb PublishRequest PublishTxn Unit ConfigEvent where
  start
    | .publish changeNote userId => .readTabs changeNote userId
    | .edit f => .edit f
  locks
    | .insert _ _ _ => [()]
    | _ => []
  next db free
    | .readTabs changeNote userId =>
      if liveTabs db.toConfiguration = [] then .continues (.checkLive changeNote userId ⟨[]⟩)
      else .continues (.readTabGroups changeNote userId (liveTabs db.toConfiguration))
    | .readTabGroups changeNote userId tabs =>
      .continues (.readMemberships changeNote userId tabs (tabGroupsOf db.toConfiguration tabs))
    | .readMemberships changeNote userId tabs tabGroups =>
      .continues (.checkLive changeNote userId
        (assembleSnapshot tabs tabGroups (membershipsOf db.toConfiguration tabGroups)))
    | .checkLive changeNote userId snapshot =>
      .orEnd (fun _ : PUnit.{1} => .continues (.lockPublish changeNote userId snapshot)) (checkPublish db snapshot)
    | .lockPublish changeNote userId snapshot => .whenFree free () (.continues (.insert changeNote userId snapshot))
    | .insert changeNote userId snapshot =>
      .orEnd (fun out => .commits out.1 (some (.published
        (((out.1.versions.get? out.2).map ConfigurationVersion.versionNo).getD 0) snapshot)))
        (publishSnapshot hash db snapshot changeNote userId)
    | .edit f => .commits { db with toConfiguration := f db.toConfiguration }
      (some (.edited (liveSnapshot (f db.toConfiguration))))

end

/-! ## What a publish stores -/

/-- The live configuration after these events. -/
def liveAfter (first : Snapshot) (log : List ConfigEvent) : Snapshot :=
  log.foldl (fun live event => match event with
    | .edited edited => edited
    | .published _ _ => live) first

theorem liveAfter_concat (first : Snapshot) (log : List ConfigEvent) (e : ConfigEvent) :
    liveAfter first (log ++ [e]) = match e with
      | .edited edited => edited
      | .published _ _ => liveAfter first log := List.foldl_append

/-- Every version that was published has the snapshot of the configuration at that moment, and a greater number
than the ones published before. -/
def PublishesLive (first : Snapshot) (log : List ConfigEvent) : Prop :=
  ∀ xs ys versionNo snapshot, log = xs ++ .published versionNo snapshot :: ys →
    snapshot = liveAfter first xs ∧ ∀ earlier s, .published earlier s ∈ xs → earlier < versionNo

theorem publishesLive_nil (first : Snapshot) : PublishesLive first [] := by
  intro xs ys versionNo snapshot h
  cases xs <;> cases h

theorem PublishesLive.concat {first : Snapshot} {log : List ConfigEvent} (h : PublishesLive first log) {e : ConfigEvent}
    (he : ∀ versionNo snapshot, e = .published versionNo snapshot →
      snapshot = liveAfter first log ∧ ∀ earlier s, .published earlier s ∈ log → earlier < versionNo) :
    PublishesLive first (log ++ [e]) := by
  intro xs ys versionNo snapshot hsplit
  rcases ys.eq_nil_or_concat with rfl | ⟨ys, last, rfl⟩
  · obtain ⟨rfl, hlast⟩ := List.append_inj' hsplit rfl
    exact he versionNo snapshot (List.singleton_inj.1 hlast)
  · rw [List.concat_eq_append, ← List.cons_append, ← List.append_assoc] at hsplit
    obtain ⟨rfl, -⟩ := List.append_inj' hsplit rfl
    exact h xs ys versionNo snapshot rfl

/-! ## The rows that a snapshot is made of -/

/-- A tab without the version it is stamped with. -/
def ComponentTab.unstamped (tab : ℕ × ComponentTab) : ℕ × ComponentTab := (tab.1, { tab.2 with configVersionId := none })

/-- The three statements of a publish find the same in both configurations. -/
structure SameLive (a b : Configuration) : Prop where
  tabs : (liveTabs b).map ComponentTab.unstamped = (liveTabs a).map ComponentTab.unstamped
  tabGroups : tabGroupsOf b (liveTabs b) = tabGroupsOf a (liveTabs a)
  memberships : membershipsOf b (tabGroupsOf b (liveTabs b)) = membershipsOf a (tabGroupsOf a (liveTabs a))

instance (a b : Configuration) : Decidable (SameLive a b) :=
  decidable_of_iff ((liveTabs b).map ComponentTab.unstamped = (liveTabs a).map ComponentTab.unstamped ∧
    tabGroupsOf b (liveTabs b) = tabGroupsOf a (liveTabs a) ∧
      membershipsOf b (tabGroupsOf b (liveTabs b)) = membershipsOf a (tabGroupsOf a (liveTabs a)))
    ⟨fun h => ⟨h.1, h.2.1, h.2.2⟩, fun h => ⟨h.tabs, h.tabGroups, h.memberships⟩⟩

theorem unstamped_ids {tabs tabs' : List (ℕ × ComponentTab)}
    (h : tabs.map ComponentTab.unstamped = tabs'.map ComponentTab.unstamped) (id : ℕ) :
    (tabs.any fun tab => tab.1 == id) = tabs'.any fun tab => tab.1 == id := by
  have hany : ∀ tabs : List (ℕ × ComponentTab), (tabs.any fun tab => tab.1 == id) =
      (tabs.map ComponentTab.unstamped).any fun tab => tab.1 == id := by
    intro tabs
    rw [List.any_map]
    rfl
  rw [hany tabs, hany tabs', h]

theorem tabGroupsOf_unstamped (config : Configuration) {tabs tabs' : List (ℕ × ComponentTab)}
    (h : tabs.map ComponentTab.unstamped = tabs'.map ComponentTab.unstamped) :
    tabGroupsOf config tabs = tabGroupsOf config tabs' := by
  rw [tabGroupsOf, tabGroupsOf]
  congr 1
  funext link
  exact unstamped_ids h link.tabId

theorem assembleSnapshot_unstamped {tabs tabs' : List (ℕ × ComponentTab)}
    (h : tabs.map ComponentTab.unstamped = tabs'.map ComponentTab.unstamped)
    (tabGroups : List ((ℕ × ComponentTabGroup) × ComponentGroup))
    (memberships : List (ComponentGroupAttribute × (ℕ × ComponentAttribute))) :
    assembleSnapshot tabs tabGroups memberships = assembleSnapshot tabs' tabGroups memberships := by
  have hentries : ∀ tabs : List (ℕ × ComponentTab),
      (tabs.map fun tab => tabEntry tab (groupEntriesOf tabGroups memberships tab.1)) =
        (tabs.map ComponentTab.unstamped).map fun tab => tabEntry tab (groupEntriesOf tabGroups memberships tab.1) := by
    intro tabs
    rw [List.map_map]
    rfl
  rw [assembleSnapshot, assembleSnapshot, hentries tabs, hentries tabs', h]

theorem SameLive.liveSnapshot {a b : Configuration} (h : SameLive a b) : liveSnapshot b = liveSnapshot a := by
  rw [LcsSystem.liveSnapshot, LcsSystem.liveSnapshot, h.memberships, h.tabGroups]
  exact assembleSnapshot_unstamped h.tabs _ _

/-- Stamping the tabs with a version does not change what is live. -/
theorem sameLive_stampLiveTabs (db : ConfigDb) (versionId : ℕ) :
    SameLive db.toConfiguration (stampLiveTabs db versionId).toConfiguration := by
  have hlive : liveTabs (stampLiveTabs db versionId).toConfiguration =
      (liveTabs db.toConfiguration).map fun tab => (tab.1, tab.2.stamped versionId) := by
    simp only [liveTabs, stampLiveTabs, Table.select_map]
    exact (List.map_insertionSort (displayOrder ComponentTab.displayOrder) (displayOrder ComponentTab.displayOrder)
      (fun tab : ℕ × ComponentTab => (tab.1, tab.2.stamped versionId)) _ fun _ _ _ _ => Iff.rfl).symm
  have htabsLive : (liveTabs (stampLiveTabs db versionId).toConfiguration).map ComponentTab.unstamped =
      (liveTabs db.toConfiguration).map ComponentTab.unstamped := by
    rw [hlive, List.map_map]
    rfl
  have hgroups : tabGroupsOf (stampLiveTabs db versionId).toConfiguration (liveTabs (stampLiveTabs db versionId).toConfiguration) =
      tabGroupsOf db.toConfiguration (liveTabs db.toConfiguration) := tabGroupsOf_unstamped db.toConfiguration htabsLive
  exact ⟨htabsLive, hgroups, congrArg (membershipsOf db.toConfiguration) hgroups⟩

/-! ## Open publishes -/

/-- A publish that has read something. -/
def PublishTxn.hasRead : PublishTxn → Bool
  | .readTabs _ _ | .edit _ => false
  | _ => true

/-- What a publish has read is still what its statements find. -/
def PublishTxn.UpToDate (config : Configuration) : PublishTxn → Prop
  | .readTabs _ _ | .edit _ => True
  | .readTabGroups _ _ tabs => tabs.map ComponentTab.unstamped = (liveTabs config).map ComponentTab.unstamped
  | .readMemberships _ _ tabs tabGroups => tabs.map ComponentTab.unstamped = (liveTabs config).map ComponentTab.unstamped ∧
      tabGroups = tabGroupsOf config (liveTabs config)
  | .checkLive _ _ snapshot | .lockPublish _ _ snapshot | .insert _ _ snapshot => snapshot = liveSnapshot config

theorem PublishTxn.UpToDate.of_sameLive {a b : Configuration} {t : PublishTxn} (h : t.UpToDate a) (hlive : SameLive a b) :
    t.UpToDate b := by
  cases t with
  | readTabs | edit => trivial
  | readTabGroups changeNote userId tabs => exact Eq.trans h hlive.tabs.symm
  | readMemberships changeNote userId tabs tabGroups =>
    exact ⟨Eq.trans h.1 hlive.tabs.symm, Eq.trans h.2 hlive.tabGroups.symm⟩
  | checkLive changeNote userId snapshot | lockPublish changeNote userId snapshot | insert changeNote userId snapshot =>
    exact Eq.trans h hlive.liveSnapshot.symm

section
variable {hash : Snapshot → String} {db : ConfigDb}

theorem publish_continues {free : Unit → Bool} {t t' : PublishTxn} (ht : t.UpToDate db.toConfiguration)
    (h : (publishProtocol hash).next db free t = .continues t') : t'.UpToDate db.toConfiguration := by
  cases t with
  | readTabs changeNote userId =>
    simp only [publishProtocol] at h
    split at h
    · next hnone =>
      cases h
      rw [PublishTxn.UpToDate, liveSnapshot, hnone]
      rfl
    · cases h
      rfl
  | readTabGroups changeNote userId tabs =>
    cases h
    exact ⟨ht, tabGroupsOf_unstamped db.toConfiguration ht⟩
  | readMemberships changeNote userId tabs tabGroups =>
    cases h
    obtain ⟨htabs, rfl⟩ := ht
    exact assembleSnapshot_unstamped htabs _ _
  | checkLive changeNote userId snapshot =>
    simp only [publishProtocol, Transactions.Outcome.orEnd_eq_continues, Transactions.Outcome.continues.injEq] at h
    obtain ⟨_, -, rfl⟩ := h
    exact ht
  | lockPublish changeNote userId snapshot =>
    simp only [publishProtocol, Transactions.Outcome.whenFree_eq_continues, Transactions.Outcome.continues.injEq] at h
    exact h.2 ▸ ht
  | insert changeNote userId snapshot =>
    simp only [publishProtocol, Transactions.Outcome.orEnd_eq_continues] at h
    obtain ⟨_, -, h⟩ := h
    cases h
  | edit f => cases h

/-- An edit that commits while a publish has read something leaves alone what its statements find. -/
def EditsBetween (s : Transactions.System ConfigDb PublishTxn ConfigEvent) : Transactions.Action PublishRequest → Prop
  | .advance id => ∀ t ∈ s.txns.get? id, match t with
    | .edit f => (∃ t ∈ s.txns.values, t.hasRead = true) → SameLive s.db.toConfiguration (f s.db.toConfiguration)
    | _ => True
  | _ => True

instance (s : Transactions.System ConfigDb PublishTxn ConfigEvent) : ∀ a, Decidable (EditsBetween s a)
  | .advance _ =>
    have (t : PublishTxn) : Decidable (match t with
        | .edit f => (∃ t ∈ s.txns.values, t.hasRead = true) → SameLive s.db.toConfiguration (f s.db.toConfiguration)
        | _ => True) := match t with
      | .edit _ => inferInstanceAs (Decidable (_ → _))
      | .readTabs _ _ | .readTabGroups _ _ _ | .readMemberships _ _ _ _ | .checkLive _ _ _ | .lockPublish _ _ _
      | .insert _ _ _ => .isTrue trivial
    inferInstanceAs (Decidable (∀ t ∈ _, _))
  | .start _ | .abandon _ => .isTrue trivial

/-- What holds between the statements. -/
structure Publishing (first : Snapshot) (s : Transactions.System ConfigDb PublishTxn ConfigEvent) : Prop where
  publishes : PublishesLive first s.log
  live : liveAfter first s.log = liveSnapshot s.db.toConfiguration
  numbers : ∀ versionNo snapshot, .published versionNo snapshot ∈ s.log → versionNo < nextVersionNo s.db
  upToDate : ∀ id t, s.txns.get? id = some t → t.UpToDate s.db.toConfiguration

theorem nextVersionNo_retireLive (db : ConfigDb) (live : Option (ℕ × ConfigurationVersion)) :
    nextVersionNo (retireLive db live) = nextVersionNo db := by
  cases live with
  | none => rfl
  | some live =>
    have hrows : ∀ r, (Table.modifyRow live.1 (fun v : ConfigurationVersion => { v with status := .retired }) r).2.versionNo =
        r.2.versionNo := by
      intro r
      unfold Table.modifyRow
      split <;> rfl
    simp only [nextVersionNo, retireLive, setVersionStatus, Table.values, Table.modify, List.map_map, Function.comp_def, hrows]

/-- What a publish commits. -/
theorem publishSnapshot_spec {snapshot : Snapshot} {changeNote : Option String} {userId : Option ℕ} {out : ConfigDb × ℕ}
    (h : publishSnapshot hash db snapshot changeNote userId = .ok out) :
    SameLive db.toConfiguration out.1.toConfiguration ∧ ∃ v, out.1.versions.get? out.2 = some v ∧
      v.versionNo = nextVersionNo db ∧ v.configSnapshot = snapshot ∧ nextVersionNo db < nextVersionNo out.1 := by
  simp only [publishSnapshot, insertVersion, bind_eq_ok, pure_eq_ok] at h
  obtain ⟨_, -, _, -, hout⟩ := h
  have hconfig : (retireLive db (publishedVersion db)).toConfiguration = db.toConfiguration := by
    unfold retireLive
    split <;> rfl
  have hget : ∃ v, out.1.versions.get? out.2 = some v ∧ v.versionNo = nextVersionNo db ∧ v.configSnapshot = snapshot := by
    rw [← hout]
    exact ⟨_, Table.get?_insert_self _ _, nextVersionNo_retireLive db _, rfl⟩
  obtain ⟨v, hv, hnumber, hsnapshot⟩ := hget
  refine ⟨?_, v, hv, hnumber, hsnapshot, hnumber ▸ lt_nextVersionNo hv⟩
  have hstamp := sameLive_stampLiveTabs { retireLive db (publishedVersion db) with versions := out.1.versions }
    (retireLive db (publishedVersion db)).versions.nextId
  rw [← hconfig, ← hout]
  exact hstamp

theorem Publishing.finish {first : Snapshot} {s : Transactions.System ConfigDb PublishTxn ConfigEvent} (h : Publishing first s) (id : ℕ) :
    Publishing first (s.finish id) where
  publishes := h.publishes
  live := h.live
  numbers := h.numbers
  upToDate i t hi := h.upToDate i t (Transactions.get?_finish hi).2

/-- **Step lemma.** -/
theorem Publishing.step {first : Snapshot} {s : Transactions.System ConfigDb PublishTxn ConfigEvent} (h : Publishing first s)
    (a : Transactions.Action PublishRequest) (ha : EditsBetween s a) : Publishing first ((publishProtocol hash).step s a) := by
  cases a with
  | start r =>
    refine ⟨h.publishes, h.live, h.numbers, Table.forall_insert h.upToDate ?_⟩
    cases r <;> trivial
  | abandon id => exact h.finish id
  | advance id =>
    cases hid : s.txns.get? id with
    | none =>
      rw [step_advance_none hid]
      exact h
    | some t =>
      rw [step_advance hid]
      cases hnext : (publishProtocol hash).next s.db ((publishProtocol hash).free s id) t with
      | waits => exact h
      | continues t' =>
        exact ⟨h.publishes, h.live, h.numbers,
          Table.forall_modify hid h.upToDate (publish_continues (h.upToDate id t hid) hnext)⟩
      | ends => exact h.finish id
      | commits db' event =>
        cases t with
        | insert changeNote userId snapshot =>
          simp only [publishProtocol, Transactions.Outcome.orEnd_eq_commits, Transactions.Outcome.commits.injEq] at hnext
          obtain ⟨out, hout, rfl, rfl⟩ := hnext
          obtain ⟨hlive, v, hv, hnumber, -, hgreater⟩ := publishSnapshot_spec hout
          have hsnapshot : snapshot = liveSnapshot s.db.toConfiguration := h.upToDate id _ hid
          rw [hv, Option.map_some, Option.getD_some, hnumber]
          refine ⟨h.publishes.concat ?_, ?_, ?_, ?_⟩
          · rintro versionNo snapshot' hevent
            cases hevent
            exact ⟨hsnapshot.trans h.live.symm, h.numbers⟩
          · exact (liveAfter_concat first s.log _).trans (h.live.trans hlive.liveSnapshot.symm)
          · intro versionNo snapshot' hmem
            rcases List.mem_append.1 hmem with hold | hnew
            · exact (h.numbers versionNo snapshot' hold).trans hgreater
            · cases List.mem_singleton.1 hnew
              exact hgreater
          · exact fun i u hi => (h.upToDate i u (Transactions.get?_finish hi).2).of_sameLive hlive
        | edit f =>
          cases hnext
          refine ⟨h.publishes.concat (fun _ _ hevent => by cases hevent), liveAfter_concat _ _ _, ?_, ?_⟩
          · intro versionNo snapshot hmem
            rcases List.mem_append.1 hmem with hold | hnew
            · exact h.numbers versionNo snapshot hold
            · cases List.mem_singleton.1 hnew
          · intro i u hi
            have hu := (Transactions.get?_finish hi).2
            cases hread : u.hasRead with
            | true =>
              exact (h.upToDate i u hu).of_sameLive (ha _ hid ⟨u, Table.mem_values.2 ⟨i, hu⟩, hread⟩)
            | false => cases u <;> trivial
        | readTabs changeNote userId =>
          simp only [publishProtocol] at hnext
          split at hnext <;> cases hnext
        | readTabGroups | readMemberships => cases hnext
        | checkLive changeNote userId snapshot =>
          simp only [publishProtocol, Transactions.Outcome.orEnd_eq_commits] at hnext
          obtain ⟨_, -, hnext⟩ := hnext
          cases hnext
        | lockPublish changeNote userId snapshot =>
          simp only [publishProtocol, Transactions.Outcome.whenFree_eq_commits] at hnext
          cases hnext.2

/-- **A publish freezes the live configuration** in every run in which no edit of the live configuration commits
while a publish has read something. -/
theorem publishes_live (db : ConfigDb) (as : List (Transactions.Action PublishRequest))
    (hmeets : Meets (publishProtocol hash).step EditsBetween (Transactions.System.idle db) as) :
    PublishesLive (liveSnapshot db.toConfiguration) (run (publishProtocol hash).step (Transactions.System.idle db) as).log := by
  have hidle : Publishing (liveSnapshot db.toConfiguration) (Transactions.System.idle db : Transactions.System ConfigDb PublishTxn ConfigEvent) :=
    ⟨publishesLive_nil _, rfl, (fun _ _ hmem => by cases hmem), (fun _ _ hi => by cases hi)⟩
  exact (run_invariant_of_meets (Publishing _) (fun s a h ha => h.step a ha) hidle hmeets).publishes

end

/-- The name of the tab is edited. -/
def renamedForm (config : Configuration) : Configuration :=
  { config with tabs := config.tabs.modify 1 fun tab => { tab with name := "Booking" } }

/-- A publish of its own, an edit, and a publish again. -/
def publishedInTurn : List (Transactions.Action PublishRequest) :=
  .start (.publish none (some 1)) :: List.replicate 6 (.advance 1) ++
    [.start (.edit renamedForm), .advance 2, .start (.publish none (some 1))] ++ List.replicate 6 (.advance 3)

theorem publishes_live_publishedInTurn : PublishesLive (liveSnapshot unpublishedForm.toConfiguration)
    (run (publishProtocol tabDigest).step (Transactions.System.idle unpublishedForm) publishedInTurn).log :=
  publishes_live unpublishedForm publishedInTurn (by decide +kernel)

/-- The first publish has read the form before the edit and waits; the second one publishes the form after it. -/
def publishedStale : List (Transactions.Action PublishRequest) :=
  .start (.publish none (some 1)) :: List.replicate 4 (.advance 1) ++
    [.start (.edit renamedForm), .advance 2, .start (.publish none (some 1))] ++ List.replicate 6 (.advance 3) ++
      List.replicate 2 (.advance 1)

/-- Version 2 has the form that version 1 had already replaced. -/
theorem later_version_is_older : ¬∀ as, PublishesLive (liveSnapshot unpublishedForm.toConfiguration)
    (run (publishProtocol tabDigest).step (Transactions.System.idle unpublishedForm) as).log := by
  intro h
  have hlog : (run (publishProtocol tabDigest).step (Transactions.System.idle unpublishedForm) publishedStale).log =
      [.edited (liveSnapshot (renamedForm bookingForm)), .published 1 (liveSnapshot (renamedForm bookingForm))] ++
        .published 2 (liveSnapshot bookingForm) :: [] := by decide +kernel
  have hstored := (h publishedStale _ _ 2 _ hlog).1
  have hother : liveSnapshot bookingForm ≠ liveSnapshot (renamedForm bookingForm) := by decide +kernel
  exact hother hstored

end LcsSystem
