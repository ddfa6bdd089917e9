import LcsSystem.MasterData.ConfigVersions
import LcsSystem.Lib.Transition

/-!
# Runs of the version requests

The requests on configuration versions one after the other, as the publish lock serialises them. A publish has
built and checked its snapshot before it gets the lock, so its action says which state it saw then.
-/

namespace LcsSystem
open Relational Checks Transition

inductive VersionAction
  | publish (seen : ConfigDb) (snapshot : Snapshot) (changeNote : Option String) (userId : Option ℕ)
  | activate (id : ℕ) (userId : Option ℕ)
  | rollback (id : ℕ) (reason : String) (userId : Option ℕ)
  | retire (id : ℕ)
  | updateDraft (id : ℕ) (changeNote : String)
  | deleteDraft (id : ℕ)

section
variable (hash : Snapshot → String)

def VersionAction.request (db : ConfigDb) : VersionAction → Result ConfigDb
  | .publish seen snapshot changeNote userId => do
    checkPublish seen snapshot
    Prod.fst <$> publishSnapshot hash db snapshot changeNote userId
  | .activate id userId => activateVersion db id userId
  | .rollback id reason userId => Prod.fst <$> rollbackVersion hash db id reason userId
  | .retire id => retireVersion db id
  | .updateDraft id changeNote => LcsSystem.updateDraft db id changeNote
  | .deleteDraft id => LcsSystem.deleteDraft db id

def versionStep (db : ConfigDb) (a : VersionAction) : ConfigDb := orKeep db (a.request hash db)

/-! ## What a request writes -/

/-- A version that is live. -/
def ConfigDb.IsLive (db : ConfigDb) (id : ℕ) : Prop := ∃ v, db.versions.get? id = some v ∧ v.status = .published

/-- The versions after a request. -/
inductive VersionWrite (db : ConfigDb) : Table ConfigurationVersion → Prop
  | keep : VersionWrite db db.versions
  | insert (v : ConfigurationVersion) (hstatus : v.status = .published)
      (hnumber : v.versionNo = nextVersionNo (retireLive db (publishedVersion db)))
      (hhash : ∃ h, v.contentHash = some h ∧ (h = hash v.configSnapshot ∨
        ∃ id source, db.versions.get? id = some source ∧ source.contentHash = some h ∧
          source.configSnapshot = v.configSnapshot)) :
      VersionWrite db ((retireLive db (publishedVersion db)).versions.insert v)
  | activate (id : ℕ) (userId : Option ℕ) (hstored : ∃ v, db.versions.get? id = some v ∧ v.status ≠ .draft)
      (hother : ∀ v ∈ publishedVersion db, v.1 ≠ id) :
      VersionWrite db ((retireLive db (publishedVersion db)).versions.modify id fun v =>
        { v with status := .published, activatedByUserId := userId })
  | retire (id : ℕ) (hdraft : ∃ v, db.versions.get? id = some v ∧ v.status = .draft) :
      VersionWrite db (db.versions.modify id fun v => { v with status := .retired })
  | rename (id : ℕ) (changeNote : Option String) :
      VersionWrite db (db.versions.modify id fun v => { v with changeNote := changeNote })
  | delete (id : ℕ) (hdraft : ∃ v, db.versions.get? id = some v ∧ v.status = .draft) :
      VersionWrite db (db.versions.erase fun i _ => i == id)

variable {hash} {db : ConfigDb}

theorem versionStep_write (a : VersionAction) : VersionWrite hash db (versionStep hash db a).versions := by
  unfold versionStep
  cases h : a.request hash db with
  | error e => exact .keep
  | ok db' =>
    rw [orKeep]
    cases a with
    | publish seen snapshot changeNote userId =>
      simp only [VersionAction.request, publishSnapshot, insertVersion, bind_eq_ok, map_eq_ok, pure_eq_ok] at h
      obtain ⟨_, -, out, ⟨_, -, _, -, rfl⟩, rfl⟩ := h
      exact .insert _ rfl rfl ⟨_, rfl, .inl rfl⟩
    | activate id userId =>
      simp only [VersionAction.request, activateVersion, getVersion, ensureActivatable, bind_eq_ok, require_eq_ok,
        check_eq_ok] at h
      obtain ⟨target, htarget, _, ⟨_, hleft, _⟩, h⟩ := h
      split at h
      · rw [pure_eq_ok] at h
        exact h ▸ .keep
      · next hother =>
        simp only [bind_eq_ok, check_eq_ok, pure_eq_ok] at h
        obtain ⟨_, -, rfl⟩ := h
        exact .activate id userId ⟨target, htarget, hleft⟩ fun v hv hid => hother ⟨v, hv, hid⟩
    | rollback id reason userId =>
      simp only [VersionAction.request, rollbackVersion, insertVersion, getVersion, ensureActivatable, bind_eq_ok, map_eq_ok,
        require_eq_ok, check_eq_ok, pure_eq_ok] at h
      obtain ⟨out, ⟨_, -, target, htarget, _, -, _, -, _, -, _, -, rfl⟩, rfl⟩ := h
      refine .insert _ rfl rfl ⟨_, rfl, ?_⟩
      cases hkept : target.contentHash.filter fun h => h ≠ "" with
      | none => exact .inl rfl
      | some h =>
        refine .inr ⟨id, target, htarget, ?_, rfl⟩
        exact (Option.filter_eq_some_iff.1 hkept).1
    | retire id =>
      simp only [VersionAction.request, retireVersion, getVersion, bind_eq_ok, require_eq_ok] at h
      obtain ⟨version, hversion, h⟩ := h
      split at h
      · rw [pure_eq_ok] at h
        exact h ▸ .keep
      · next hretired =>
        simp only [bind_eq_ok, check_eq_ok, pure_eq_ok] at h
        obtain ⟨_, hpublished, rfl⟩ := h
        refine .retire id ⟨version, hversion, ?_⟩
        cases hstatus : version.status with
        | draft => rfl
        | published => exact absurd hstatus hpublished
        | retired => exact absurd hstatus hretired
    | updateDraft id changeNote =>
      simp only [VersionAction.request, updateDraft, bind_eq_ok, pure_eq_ok] at h
      obtain ⟨_, -, _, -, _, -, rfl⟩ := h
      exact .rename id _
    | deleteDraft id =>
      simp only [VersionAction.request, deleteDraft, getVersion, bind_eq_ok, require_eq_ok, check_eq_ok, pure_eq_ok] at h
      obtain ⟨version, hversion, _, hdraft, _, -, _, -, _, -, _, -, rfl⟩ := h
      exact .delete id ⟨version, hversion, hdraft⟩

/-! ## The invariant -/

variable (hash) in
/-- What holds of the versions after every request. -/
structure VersionsKept (db : ConfigDb) : Prop where
  oneLive : ∀ i j, db.IsLive i → db.IsLive j → i = j
  numbers : ∀ i j v w, db.versions.get? i = some v → db.versions.get? j = some w → v.versionNo = w.versionNo → i = j
  hashed : ∀ i v, db.versions.get? i = some v → ∀ h ∈ v.contentHash, h = hash v.configSnapshot

/-- No number is above the greatest one. -/
theorem le_foldl_max {n m : ℕ} {l : List ℕ} (h : n ≤ m ∨ n ∈ l) : n ≤ l.foldl max m := by
  induction l generalizing m with
  | nil =>
    rcases h with h | h
    · exact h
    · cases h
  | cons a l ih =>
    rw [List.foldl_cons]
    apply ih
    rcases h with h | h
    · exact .inl (h.trans (le_max_left m a))
    · rcases List.mem_cons.1 h with rfl | h
      · exact .inl (le_max_right m n)
      · exact .inr h

theorem lt_nextVersionNo {id : ℕ} {v : ConfigurationVersion} (h : db.versions.get? id = some v) :
    v.versionNo < nextVersionNo db :=
  Nat.lt_succ_of_le (le_foldl_max (.inr (List.mem_map_of_mem (Table.mem_values.2 ⟨id, h⟩))))

theorem publishedVersion_eq_some {r : ℕ × ConfigurationVersion} (h : publishedVersion db = some r) :
    db.versions.get? r.1 = some r.2 ∧ r.2.status = .published := by
  have hfound := List.find?_some h
  exact ⟨Table.get?_eq_some.2 (List.mem_of_find?_eq_some h), by simpa using hfound⟩

theorem publishedVersion_eq_none (h : publishedVersion db = none) (id : ℕ) : ¬db.IsLive id := by
  rintro ⟨v, hv, hstatus⟩
  have hnone := List.find?_eq_none.1 h (id, v) (Table.get?_eq_some.1 hv)
  simp [hstatus] at hnone

/-- What a version becomes when the live one is retired. -/
def ConfigurationVersion.afterRetire (v : ConfigurationVersion) : ConfigurationVersion :=
  if v.status = .published then { v with status := .retired } else v

theorem get?_retireLive (hone : ∀ i j, db.IsLive i → db.IsLive j → i = j) (id : ℕ) :
    (retireLive db (publishedVersion db)).versions.get? id =
      (db.versions.get? id).map ConfigurationVersion.afterRetire := by
  cases hlive : publishedVersion db with
  | none =>
    rw [retireLive]
    cases hv : db.versions.get? id with
    | none => rfl
    | some v =>
      have hstatus : v.status ≠ .published := fun hstatus => publishedVersion_eq_none hlive id ⟨v, hv, hstatus⟩
      rw [Option.map_some, ConfigurationVersion.afterRetire, if_neg hstatus]
  | some r =>
    obtain ⟨hget, hstatus⟩ := publishedVersion_eq_some hlive
    simp only [retireLive, setVersionStatus, Table.get?_modify]
    split
    · next hid =>
      rw [hid, hget, Option.map_some, Option.map_some, ConfigurationVersion.afterRetire, if_pos hstatus]
    · next hid =>
      cases hv : db.versions.get? id with
      | none => rfl
      | some v =>
        have hother : v.status ≠ .published := fun hv' => hid (hone _ _ ⟨v, hv, hv'⟩ ⟨r.2, hget, hstatus⟩)
        rw [Option.map_some, ConfigurationVersion.afterRetire, if_neg hother]

theorem nextId_retireLive (db : ConfigDb) :
    (retireLive db (publishedVersion db)).versions.nextId = db.versions.nextId := by
  unfold retireLive
  split <;> rfl

@[simp] theorem afterRetire_frozen (v : ConfigurationVersion) : v.afterRetire.versionNo = v.versionNo ∧
    v.afterRetire.contentHash = v.contentHash ∧ v.afterRetire.configSnapshot = v.configSnapshot := by
  unfold ConfigurationVersion.afterRetire
  split <;> exact ⟨rfl, rfl, rfl⟩

theorem afterRetire_status (v : ConfigurationVersion) : v.afterRetire.status ≠ .published ∧
    (v.afterRetire.status = .draft ↔ v.status = .draft) := by
  unfold ConfigurationVersion.afterRetire
  split
  · next h => simp [h]
  · next h => exact ⟨h, Iff.rfl⟩

/-! ## What every request keeps -/

/-- Two readings of the versions, the second one later. -/
structure VersionsAfter (before after : ConfigDb) : Prop where
  nextId : before.versions.nextId ≤ after.versions.nextId
  frozen : ∀ id v', after.versions.get? id = some v' → id < before.versions.nextId → ∃ v, before.versions.get? id = some v ∧
    v'.versionNo = v.versionNo ∧ v'.contentHash = v.contentHash ∧ v'.configSnapshot = v.configSnapshot
  kept : ∀ id v, before.versions.get? id = some v → v.status ≠ .draft →
    ∃ v', after.versions.get? id = some v' ∧ v'.status ≠ .draft
  live : (∃ id, before.IsLive id) → ∃ id, after.IsLive id

variable (hash) in
/-- One request: only drafts are deleted, and a new version has the greatest number and the hash of its snapshot. -/
structure VersionsStepped (before after : ConfigDb) : Prop where
  deleted : ∀ id v, before.versions.get? id = some v → after.versions.get? id = none → v.status = .draft
  created : ∀ id v, before.versions.get? id = none → after.versions.get? id = some v →
    v.contentHash = some (hash v.configSnapshot) ∧
      ∀ i old, before.versions.get? i = some old → old.versionNo < v.versionNo

theorem VersionsAfter.refl (db : ConfigDb) : VersionsAfter db db where
  nextId := le_rfl
  frozen _ v hv _ := ⟨v, hv, rfl, rfl, rfl⟩
  kept _ v hv hleft := ⟨v, hv, hleft⟩
  live h := h

theorem VersionsAfter.trans {a b c : ConfigDb} (hab : VersionsAfter a b) (hbc : VersionsAfter b c) : VersionsAfter a c where
  nextId := hab.nextId.trans hbc.nextId
  frozen id v hv hid := by
    obtain ⟨w, hw, hno, hhash, hsnapshot⟩ := hbc.frozen id v hv (hid.trans_le hab.nextId)
    obtain ⟨u, hu, hno', hhash', hsnapshot'⟩ := hab.frozen id w hw hid
    exact ⟨u, hu, hno.trans hno', hhash.trans hhash', hsnapshot.trans hsnapshot'⟩
  kept id v hv hleft := by
    obtain ⟨w, hw, hleft'⟩ := hab.kept id v hv hleft
    exact hbc.kept id w hw hleft'
  live h := hbc.live (hab.live h)

variable (hash) in
/-- What one request does. -/
def KeepsVersions (before after : ConfigDb) : Prop :=
  VersionsKept hash after ∧ VersionsAfter before after ∧ VersionsStepped hash before after

section
variable {db' : ConfigDb}

/-- A request that updates versions, each by `g`. -/
theorem keepsVersions_of_update (h : VersionsKept hash db) {g : ℕ → ConfigurationVersion → ConfigurationVersion}
    (hnext : db'.versions.nextId = db.versions.nextId)
    (hget : ∀ id, db'.versions.get? id = (db.versions.get? id).map (g id))
    (hfrozen : ∀ id v, (g id v).versionNo = v.versionNo ∧ (g id v).contentHash = v.contentHash ∧
      (g id v).configSnapshot = v.configSnapshot)
    (hleft : ∀ id v, v.status ≠ .draft → (g id v).status ≠ .draft) (hone : ∀ i j, db'.IsLive i → db'.IsLive j → i = j)
    (hlive : (∃ id, db.IsLive id) → ∃ id, db'.IsLive id) : KeepsVersions hash db db' := by
  have hstored : ∀ id v', db'.versions.get? id = some v' → ∃ v, db.versions.get? id = some v ∧ v' = g id v := by
    intro id v' hv'
    rw [hget, Option.map_eq_some_iff] at hv'
    obtain ⟨v, hv, rfl⟩ := hv'
    exact ⟨v, hv, rfl⟩
  refine ⟨⟨hone, ?_, ?_⟩, ⟨hnext.ge, ?_, ?_, hlive⟩, ?_, ?_⟩
  · intro i j v' w' hv' hw' hno
    obtain ⟨v, hv, rfl⟩ := hstored i v' hv'
    obtain ⟨w, hw, rfl⟩ := hstored j w' hw'
    rw [(hfrozen i v).1, (hfrozen j w).1] at hno
    exact h.numbers i j v w hv hw hno
  · intro i v' hv' digest hdigest
    obtain ⟨v, hv, rfl⟩ := hstored i v' hv'
    rw [(hfrozen i v).2.1] at hdigest
    rw [(hfrozen i v).2.2]
    exact h.hashed i v hv digest hdigest
  · intro id v' hv' _
    obtain ⟨v, hv, rfl⟩ := hstored id v' hv'
    exact ⟨v, hv, hfrozen id v⟩
  · intro id v hv hdraft
    exact ⟨g id v, by rw [hget, hv, Option.map_some], hleft id v hdraft⟩
  · intro id v hv hgone
    rw [hget, hv, Option.map_some] at hgone
    cases hgone
  · intro id v hnone hv
    rw [hget, hnone, Option.map_none] at hv
    cases hv

/-- The live version is retired, and `v` is the only one afterwards. -/
theorem keepsVersions_insert (h : VersionsKept hash db) {v : ConfigurationVersion} (hstatus : v.status = .published)
    (hnumber : v.versionNo = nextVersionNo (retireLive db (publishedVersion db)))
    (hhash : v.contentHash = some (hash v.configSnapshot))
    (hwrite : db'.versions = (retireLive db (publishedVersion db)).versions.insert v) : KeepsVersions hash db db' := by
  have hnextId := nextId_retireLive db
  have hget : ∀ id, db'.versions.get? id = if id = db.versions.nextId then some v else
      (db.versions.get? id).map ConfigurationVersion.afterRetire := by
    intro id
    rw [hwrite, Table.get?_insert, hnextId, get?_retireLive h.oneLive]
  have hold : ∀ id w, db.versions.get? id = some w → db'.versions.get? id = some w.afterRetire := by
    intro id w hw
    rw [hget, if_neg (Table.lt_nextId hw).ne, hw, Option.map_some]
  have hnew : db'.versions.get? db.versions.nextId = some v := by rw [hget, if_pos rfl]
  have hcases : ∀ id w', db'.versions.get? id = some w' → (id = db.versions.nextId ∧ w' = v) ∨
      ∃ w, db.versions.get? id = some w ∧ w' = w.afterRetire := by
    intro id w' hw'
    rw [hget] at hw'
    split at hw'
    · next hid => exact .inl ⟨hid, (Option.some.inj hw').symm⟩
    · obtain ⟨w, hw, rfl⟩ := Option.map_eq_some_iff.1 hw'
      exact .inr ⟨w, hw, rfl⟩
  have hgreater : ∀ id w, db.versions.get? id = some w → w.versionNo < v.versionNo := by
    intro id w hw
    rw [hnumber]
    have hretired : (retireLive db (publishedVersion db)).versions.get? id = some w.afterRetire := by
      rw [get?_retireLive h.oneLive, hw, Option.map_some]
    have hlt := lt_nextVersionNo hretired
    rwa [(afterRetire_frozen w).1] at hlt
  have hlive : ∀ id, db'.IsLive id → id = db.versions.nextId := by
    rintro id ⟨w', hw', hpublished⟩
    rcases hcases id w' hw' with ⟨hid, -⟩ | ⟨w, hw, rfl⟩
    · exact hid
    · exact absurd hpublished (afterRetire_status w).1
  refine ⟨⟨?_, ?_, ?_⟩, ⟨?_, ?_, ?_, ?_⟩, ?_, ?_⟩
  · intro i j hi hj
    rw [hlive i hi, hlive j hj]
  · intro i j x y hx hy hno
    rcases hcases i x hx with ⟨rfl, rfl⟩ | ⟨x', hx', rfl⟩ <;> rcases hcases j y hy with ⟨rfl, rfl⟩ | ⟨y', hy', rfl⟩
    · rfl
    · rw [(afterRetire_frozen y').1] at hno
      exact absurd hno (hgreater j y' hy').ne'
    · rw [(afterRetire_frozen x').1] at hno
      exact absurd hno (hgreater i x' hx').ne
    · rw [(afterRetire_frozen x').1, (afterRetire_frozen y').1] at hno
      exact h.numbers i j x' y' hx' hy' hno
  · intro i x hx digest hdigest
    rcases hcases i x hx with ⟨-, rfl⟩ | ⟨x', hx', rfl⟩
    · rw [hhash, Option.mem_some_iff] at hdigest
      exact hdigest.symm
    · rw [(afterRetire_frozen x').2.1] at hdigest
      rw [(afterRetire_frozen x').2.2]
      exact h.hashed i x' hx' digest hdigest
  · rw [hwrite]
    exact hnextId.ge.trans (Nat.le_succ _)
  · intro id w' hw' hid
    rcases hcases id w' hw' with ⟨rfl, -⟩ | ⟨w, hw, rfl⟩
    · exact absurd hid (lt_irrefl _)
    · exact ⟨w, hw, afterRetire_frozen w⟩
  · intro id w hw hdraft
    exact ⟨w.afterRetire, hold id w hw, fun hdraft' => hdraft ((afterRetire_status w).2.1 hdraft')⟩
  · exact fun _ => ⟨db.versions.nextId, v, hnew, hstatus⟩
  · intro id w hw hgone
    rw [hold id w hw] at hgone
    cases hgone
  · intro id w' hnone hw'
    rcases hcases id w' hw' with ⟨-, rfl⟩ | ⟨w, hw, -⟩
    · exact ⟨hhash, hgreater⟩
    · rw [hnone] at hw
      cases hw

/-- **One request.** -/
theorem VersionWrite.keeps (h : VersionsKept hash db) (hwrite : VersionWrite hash db db'.versions) :
    KeepsVersions hash db db' := by
  have hsame : ∀ {g : ConfigurationVersion → ConfigurationVersion} {target id : ℕ}
      (_ : db'.versions = db.versions.modify target g) (_ : ∀ v, (g v).status = .published ↔ v.status = .published),
      db'.IsLive id ↔ db.IsLive id := by
    intro g target id hversions hstatus
    rw [ConfigDb.IsLive, hversions]
    constructor
    · rintro ⟨v', hv', hpublished⟩
      rw [Table.get?_modify] at hv'
      split at hv'
      · obtain ⟨v, hv, rfl⟩ := Option.map_eq_some_iff.1 hv'
        exact ⟨v, hv, (hstatus v).1 hpublished⟩
      · exact ⟨v', hv', hpublished⟩
    · rintro ⟨v, hv, hpublished⟩
      by_cases hid : id = target
      · subst hid
        exact ⟨g v, by rw [Table.get?_modify_self, hv, Option.map_some], (hstatus v).2 hpublished⟩
      · exact ⟨v, by rw [Table.get?_modify_of_ne g hid, hv], hpublished⟩
  generalize hversions : db'.versions = versions at hwrite
  cases hwrite with
  | keep =>
    refine keepsVersions_of_update h (g := fun _ v => v) (by rw [hversions]) (fun id => by rw [hversions, Option.map_id'])
      (fun _ _ => ⟨rfl, rfl, rfl⟩) (fun _ _ hleft => hleft) ?_ ?_
    · simpa only [ConfigDb.IsLive, hversions] using h.oneLive
    · simp only [ConfigDb.IsLive, hversions, imp_self]
  | insert v hstatus hnumber hhash =>
    obtain ⟨digest, hcontent, hdigest⟩ := hhash
    refine keepsVersions_insert h hstatus hnumber ?_ hversions
    rw [hcontent]
    rcases hdigest with rfl | ⟨id, source, hsource, hstored, hsnapshot⟩
    · rfl
    · rw [← hsnapshot, h.hashed id source hsource digest hstored]
  | activate id userId hstored hother =>
    have hget : ∀ i, db'.versions.get? i = (db.versions.get? i).map fun v =>
        if i = id then { v.afterRetire with status := .published, activatedByUserId := userId } else v.afterRetire := by
      intro i
      rw [hversions, Table.get?_modify, get?_retireLive h.oneLive]
      split <;> simp [Option.map_map, Function.comp_def]
    have hlive : ∀ i, db'.IsLive i ↔ i = id := by
      intro i
      constructor
      · rintro ⟨v', hv', hpublished⟩
        rw [hget, Option.map_eq_some_iff] at hv'
        obtain ⟨v, -, rfl⟩ := hv'
        by_contra hne
        rw [if_neg hne] at hpublished
        exact (afterRetire_status v).1 hpublished
      · rintro rfl
        obtain ⟨v, hv, -⟩ := hstored
        exact ⟨_, by rw [hget, hv, Option.map_some, if_pos rfl], rfl⟩
    refine keepsVersions_of_update h ?_ hget ?_ ?_ ?_ ?_
    · rw [hversions]
      exact nextId_retireLive db
    · intro i v
      split <;> exact afterRetire_frozen v
    · intro i v hleft
      split
      · exact fun hdraft => nomatch hdraft
      · exact fun hdraft => hleft ((afterRetire_status v).2.1 hdraft)
    · intro i j hi hj
      rw [(hlive i).1 hi, (hlive j).1 hj]
    · exact fun _ => ⟨id, (hlive id).2 rfl⟩
  | retire id hdraft =>
    obtain ⟨v, hv, hstatus⟩ := hdraft
    have hget : ∀ i, db'.versions.get? i = (db.versions.get? i).map fun v =>
        if i = id then { v with status := .retired } else v := by
      intro i
      rw [hversions, Table.get?_modify]
      split <;> simp
    have hlive : ∀ i, db'.IsLive i ↔ db.IsLive i := by
      intro i
      constructor
      · rintro ⟨w', hw', hpublished⟩
        rw [hget, Option.map_eq_some_iff] at hw'
        obtain ⟨w, hw, rfl⟩ := hw'
        split at hpublished
        · cases hpublished
        · exact ⟨w, hw, hpublished⟩
      · rintro ⟨w, hw, hpublished⟩
        have hne : i ≠ id := by
          rintro rfl
          rw [hv, Option.some.injEq] at hw
          rw [← hw, hstatus] at hpublished
          cases hpublished
        exact ⟨w, by rw [hget, hw, Option.map_some, if_neg hne], hpublished⟩
    refine keepsVersions_of_update h (by rw [hversions]; rfl) hget ?_ ?_ ?_ ?_
    · intro i v
      split <;> exact ⟨rfl, rfl, rfl⟩
    · intro i v hleft
      split
      · exact fun hdraft => nomatch hdraft
      · exact hleft
    · simpa only [hlive] using h.oneLive
    · simp only [hlive, imp_self]
  | rename id changeNote =>
    have hrename := fun i => @hsame _ _ i hversions fun v => Iff.rfl
    refine keepsVersions_of_update h (g := fun i v => if i = id then { v with changeNote := changeNote } else v)
      (by rw [hversions]; rfl) ?_ ?_ ?_ ?_ ?_
    · intro i
      rw [hversions, Table.get?_modify]
      split <;> simp
    · intro i v
      split <;> exact ⟨rfl, rfl, rfl⟩
    · intro i v hleft
      split <;> exact hleft
    · simpa only [hrename] using h.oneLive
    · simp only [hrename, imp_self]
  | delete id hdraft =>
    obtain ⟨v, hv, hstatus⟩ := hdraft
    have hget : ∀ i, db'.versions.get? i = (db.versions.get? i).filter fun _ => !(i == id) := by
      intro i
      rw [hversions, Table.get?_erase]
    have hold : ∀ i w, db'.versions.get? i = some w → db.versions.get? i = some w := by
      intro i w hw
      rw [hget, Option.filter_eq_some_iff] at hw
      exact hw.1
    have hstays : ∀ i w, db.versions.get? i = some w → w.status ≠ .draft → db'.versions.get? i = some w := by
      intro i w hw hleft
      have hne : i ≠ id := by
        rintro rfl
        rw [hv, Option.some.injEq] at hw
        exact hleft (hw ▸ hstatus)
      rw [hget, hw, Option.filter_some, if_pos (by simpa using hne)]
    refine ⟨⟨?_, ?_, ?_⟩, ⟨?_, ?_, ?_, ?_⟩, ?_, ?_⟩
    · rintro i j ⟨x, hx, hxlive⟩ ⟨y, hy, hylive⟩
      exact h.oneLive i j ⟨x, hold i x hx, hxlive⟩ ⟨y, hold j y hy, hylive⟩
    · exact fun i j x y hx hy => h.numbers i j x y (hold i x hx) (hold j y hy)
    · exact fun i x hx => h.hashed i x (hold i x hx)
    · rw [hversions]
      exact le_rfl
    · exact fun i x hx _ => ⟨x, hold i x hx, rfl, rfl, rfl⟩
    · exact fun i x hx hleft => ⟨x, hstays i x hx hleft, hleft⟩
    · rintro ⟨i, x, hx, hlive⟩
      exact ⟨i, x, hstays i x hx (by rw [hlive]; exact fun hdraft => nomatch hdraft), hlive⟩
    · intro i x hx hgone
      by_contra hleft
      rw [hstays i x hx hleft] at hgone
      cases hgone
    · intro i x hnone hx
      rw [hold i x hx] at hnone
      cases hnone

end

/-! ## Runs -/

/-- **The lifecycle of the versions** over every run: one version at most is live and one is once there was one,
numbers are never used twice, the content of a version never changes, hashes are those of the snapshots, a new
version has the greatest number, and only drafts are deleted. -/
theorem versions_kept (hdb : VersionsKept hash db) (as : List VersionAction) :
    VersionsKept hash (run (versionStep hash) db as) ∧
      (∀ xs ys, as = xs ++ ys → VersionsAfter (run (versionStep hash) db xs) (run (versionStep hash) db as)) ∧
        ∀ xs a ys, as = xs ++ a :: ys →
          VersionsStepped hash (run (versionStep hash) db xs) (run (versionStep hash) db (xs ++ [a])) := by
  have hstep : ∀ db a, VersionsKept hash db → KeepsVersions hash db (versionStep hash db a) :=
    fun db a h => (versionStep_write a).keeps h
  have hreached : ∀ xs, VersionsKept hash (run (versionStep hash) db xs) := fun xs =>
    run_invariant (VersionsKept hash) (fun db a h => (hstep db a h).1) xs hdb
  refine ⟨hreached as, ?_, ?_⟩
  · rintro xs ys rfl
    rw [run_append]
    refine run_relation_of_meets (P := fun _ _ => True) (VersionsKept hash) VersionsAfter VersionsAfter.refl
      (fun hab hbc => hab.trans hbc) (fun db a h _ => (hstep db a h).1) (fun db a h _ => (hstep db a h).2.1)
      (hreached xs) ?_
    exact meets_of_forall_mem fun _ _ _ => trivial
  · rintro xs a ys -
    rw [run_append]
    exact (hstep _ a (hreached xs)).2.2

end

/-- One tab with one table of one field. -/
def bookingForm : Configuration where
  tabs := Table.empty.insert ⟨"general", "General", some 1, 10, true, false, none⟩
  tabGroups := Table.empty.insert ⟨1, 1, 10, some .tableOnly, some .multiple, some 3, some true, some true, some false,
    some true, "ACTIVE"⟩
  groups := Table.empty.insert ⟨"containers", "Containers", none, .table, true, false⟩
  memberships := Table.empty.insert ⟨1, 1, none, none, 10, true, "ACTIVE"⟩
  attributes := Table.empty.insert ⟨"container-no", "Container No.", none, .text, none, none, false, none, none, none, [], [],
    "ACTIVE"⟩

/-- The form, and no version yet. -/
def unpublishedForm : ConfigDb := { bookingForm with versions := .empty, rows := .empty, orders := .empty, referenceIds := fun _ _ => [] }

theorem unpublishedForm_kept (hash : Snapshot → String) : VersionsKept hash unpublishedForm where
  oneLive i j hi := by
    obtain ⟨v, hv, -⟩ := hi
    cases hv
  numbers i j v w hv := by cases hv
  hashed i v hv := by cases hv

/-- Published, published again after an edit, and rolled back. -/
def publishedTwice : List VersionAction :=
  [.publish unpublishedForm (liveSnapshot bookingForm) none (some 1),
    .publish unpublishedForm ⟨(liveSnapshot bookingForm).tabs ++ (liveSnapshot bookingForm).tabs⟩ (some "Two tabs") (some 1),
    .rollback 1 "Too long" (some 1)]

/-- A digest that tells how many tabs there are. -/
def tabDigest (snapshot : Snapshot) : String := toString snapshot.tabs.length

theorem versions_kept_publishedTwice :
    VersionsKept tabDigest (run (versionStep tabDigest) unpublishedForm publishedTwice) ∧
      (∀ xs ys, publishedTwice = xs ++ ys → VersionsAfter (run (versionStep tabDigest) unpublishedForm xs)
        (run (versionStep tabDigest) unpublishedForm publishedTwice)) ∧
      ∀ xs a ys, publishedTwice = xs ++ a :: ys → VersionsStepped tabDigest (run (versionStep tabDigest) unpublishedForm xs)
        (run (versionStep tabDigest) unpublishedForm (xs ++ [a])) :=
  versions_kept (unpublishedForm_kept tabDigest) publishedTwice

example : (run (versionStep tabDigest) unpublishedForm publishedTwice).versions.values.map
    (fun v => (v.versionNo, v.status, v.contentHash)) =
      [(1, .retired, some "1"), (2, .retired, some "2"), (3, .published, some "1")] := by decide +kernel

end LcsSystem
