import LcsSystem.Settings.AppConfig

/-!
# Settings under interleaving

A setting is a path of keys where no patch has an object. Requests that write what the merge of their patch gives, onto
groups that are still as they read them, lose no setting: it holds what one of the patches that settle it gives, or its
first value when none of them does.
-/

namespace LcsSystem
open Relational Transition Transactions

/-! ## Rows that are written -/

/-- The value of a setting. -/
def settingAt (groups : Groups) (path : List String) : Option Json := (Json.dict groups).at? path

/-- The patch has the setting, or something in place of an object around it. -/
def setsSetting (patch : Groups) (path : List String) : Bool := (Json.dict patch).settles path

/-- The patch has an object at the path. -/
def hasObject (patch : Groups) (path : List String) : Bool := ((Json.dict patch).at? path).any Json.isDict

theorem settingAt_cons (groups : Groups) (group : String) (path : List String) :
    settingAt groups (group :: path) = (groups.lookup group).bind fun v => v.at? path := rfl

theorem settingAt_congr {groups groups' : Groups} {group : String} (path : List String)
    (h : groups.lookup group = groups'.lookup group) : settingAt groups (group :: path) = settingAt groups' (group :: path) := by
  rw [settingAt_cons, settingAt_cons, h]

/-- All groups are objects. -/
def Objects (groups : Groups) : Prop := ∀ e ∈ groups, e.2.isDict = true

instance (groups : Groups) : Decidable (Objects groups) := inferInstanceAs (Decidable (∀ e ∈ groups, _))

theorem storedGroups_lookup (current groups : Groups) {data : Groups} (hdata : Objects data) (group : String) :
    (storedGroups current groups data).lookup group =
      match data.lookup group with
      | some v => some (if current.lookup group ≠ some v then v else (groups.lookup group).getD v)
      | none => groups.lookup group := by
  have hnew : (data.filter fun e => e.2.isDict && (groups.lookup e.1).isNone) =
      data.filter fun e => (groups.lookup e.1).isNone :=
    List.filter_congr fun e he => by rw [hdata e he, Bool.true_and]
  rw [storedGroups, List.lookup_append, hnew, Entries.lookup_map_value groups (storedValue current data)]
  cases hgroups : groups.lookup group with
  | none =>
    rw [Option.map_none, Option.none_or, Entries.lookup_filter_key fun k => (groups.lookup k).isNone, hgroups]
    cases data.lookup group <;> simp
  | some old =>
    rw [Option.map_some, Option.some_or, storedValue]
    cases hlookup : data.lookup group with
    | none => rfl
    | some v =>
      have hdict : v.isDict = true := hdata (group, v) (Entries.mem_of_lookup hlookup)
      simp [hdict]

/-- No row is lost. -/
theorem lookup_of_storedGroups_eq_none {current groups data : Groups} {group : String}
    (h : (storedGroups current groups data).lookup group = none) : groups.lookup group = none := by
  rw [storedGroups, List.lookup_append, Option.or_eq_none_iff, Entries.lookup_map_value groups (storedValue current data)] at h
  exact Option.map_eq_none_iff.1 h.1

theorem objects_deepMerge {current patch data : Groups} (hcurrent : Objects current) (hpatch : Objects patch)
    (h : Json.dict data = Json.deepMerge (.dict current) (.dict patch)) : Objects data := by
  rw [Json.deepMerge] at h
  obtain rfl := Json.dict.inj h
  intro e he
  rcases List.mem_append.1 he with he | he
  · exact Json.isDict_of_mem_mergeEntries hcurrent hpatch e he
  · exact hpatch e (List.mem_filter.1 he).1

/-- A setting of merged configurations. -/
theorem settingAt_deepMerge {current patch data : Groups} {path : List String} (hplain : hasObject patch path = false)
    (h : Json.dict data = Json.deepMerge (.dict current) (.dict patch)) :
    settingAt data path = if setsSetting patch path then settingAt patch path else settingAt current path := by
  unfold settingAt setsSetting
  rw [h]
  refine Json.at?_deepMerge fun v hv => ?_
  simpa [hasObject, hv] using hplain

/-! ## Invariant -/

/-- The value comes from one of the patches that set the setting, or from the first configuration. -/
def Traced (first : Groups) (patches : List Groups) (path : List String) (value : Option Json) : Prop :=
  (∃ patch ∈ patches, setsSetting patch path = true ∧ value = settingAt patch path) ∨
    (∀ patch ∈ patches, setsSetting patch path = false) ∧ value = settingAt first path

structure SettingsKept (first : Groups) (db : SettingsDb) : Prop where
  objects : Objects db.groups
  traced : ∀ group path, (∀ patch ∈ db.patches, hasObject patch (group :: path) = false) →
    Traced first db.patches (group :: path) (settingAt db.groups (group :: path))

/-- What a request has read was stored once: where no patch has set a setting, it is the first value. -/
def ReadKept (first : Groups) (db : SettingsDb) (t : SettingsTxn) : Prop :=
  match t.stage with
  | .writes _ current => Objects current ∧ (∀ group, db.groups.lookup group = none → current.lookup group = none) ∧
      ∀ group path, (∀ patch ∈ db.patches, hasObject patch (group :: path) = false) →
        (∃ patch ∈ db.patches, setsSetting patch (group :: path) = true) ∨
          settingAt current (group :: path) = settingAt first (group :: path)
  | _ => True

/-- The request writes the merge of its patch, made of objects, onto groups that are still as it read them. -/
def MergesAt (rules : SettingsRules) (db : SettingsDb) (patch : Groups) : SettingsStage → Prop
  | .writes _ current => ∀ data ∈ appConfigData rules current patch,
      Objects patch ∧ Json.dict data = Json.deepMerge (.dict current) (.dict patch) ∧
      ∀ e ∈ data, current.lookup e.1 ≠ some e.2 → db.groups.lookup e.1 = current.lookup e.1
  | _ => True

def MergesOntoRead (rules : SettingsRules) (db : SettingsDb) (_ : List Unit) (t : SettingsTxn) : Prop :=
  MergesAt rules db t.patch t.stage

instance (rules : SettingsRules) (db : SettingsDb) (patch : Groups) : DecidablePred (MergesAt rules db patch)
  | .writes _ current => inferInstanceAs (Decidable (∀ data ∈ appConfigData rules current patch, _))
  | .begins | .reads _ => .isTrue trivial

instance (rules : SettingsRules) (db : SettingsDb) (log : List Unit) (t : SettingsTxn) :
    Decidable (MergesOntoRead rules db log t) := inferInstanceAs (Decidable (MergesAt rules db t.patch t.stage))

section
variable {rules : SettingsRules} {first : Groups} {db db' : SettingsDb} {t u : SettingsTxn}

theorem Objects.stored {current groups data : Groups} (hgroups : Objects groups) (hdata : Objects data) :
    Objects (storedGroups current groups data) := by
  intro e he
  rcases List.mem_append.1 he with he | he
  · obtain ⟨e', he', rfl⟩ := List.mem_map.1 he
    simp only [storedValue]
    split
    · next v hv =>
      split
      · exact hdata (e'.1, v) (Entries.mem_of_lookup hv)
      · exact hgroups e' he'
    · exact hgroups e' he'
  · exact hdata e (List.mem_filter.1 he).1

/-- A group that a commit changes is the merge of the patch onto it. -/
theorem settingAt_stored {current patch data : Groups} (hpatch : Objects patch) (hcurrent : Objects current)
    (hmerge : Json.dict data = Json.deepMerge (.dict current) (.dict patch)) {group : String} {path : List String}
    (hplain : hasObject patch (group :: path) = false)
    (hrows : ∀ group, db.groups.lookup group = none → current.lookup group = none)
    (hread : ∀ e ∈ data, current.lookup e.1 ≠ some e.2 → db.groups.lookup e.1 = current.lookup e.1) :
    settingAt (storedGroups current db.groups data) (group :: path) =
        (if setsSetting patch (group :: path) then settingAt patch (group :: path)
          else settingAt db.groups (group :: path)) ∨
      settingAt (storedGroups current db.groups data) (group :: path) = settingAt db.groups (group :: path) ∧
      settingAt current (group :: path) = settingAt data (group :: path) := by
  have hdata := objects_deepMerge hcurrent hpatch hmerge
  have hvalue := settingAt_deepMerge hplain hmerge
  have hlookup := storedGroups_lookup current db.groups hdata group
  cases hgroup : data.lookup group with
  | none =>
    rw [hgroup] at hlookup
    have hsame := settingAt_congr path hlookup
    by_cases hchanged : current.lookup group = none
    · exact .inr ⟨hsame, settingAt_congr path (hchanged.trans hgroup.symm)⟩
    · exfalso
      rw [Json.deepMerge] at hmerge
      obtain rfl := Json.dict.inj hmerge
      rw [Json.lookup_deepMerge] at hgroup
      cases hc : current.lookup group <;> cases hp : patch.lookup group <;> simp_all [Json.mergedEntry]
  | some v =>
    rw [hgroup] at hlookup
    by_cases hchanged : current.lookup group = some v
    · have hsame : settingAt current (group :: path) = settingAt data (group :: path) :=
        settingAt_congr path (hchanged.trans hgroup.symm)
      cases hstored : db.groups.lookup group with
      | none =>
        rw [hrows group hstored] at hchanged
        cases hchanged
      | some old =>
        simp only [hchanged, hstored, ne_eq, not_true_eq_false, if_false, Option.getD_some] at hlookup
        exact .inr ⟨settingAt_congr path (hlookup.trans hstored.symm), hsame⟩
    · have hstored := hread (group, v) (Entries.mem_of_lookup hgroup) hchanged
      simp only [hchanged, ne_eq, not_false_eq_true, if_true] at hlookup
      left
      rw [settingAt_congr path (hlookup.trans hgroup.symm), hvalue, settingAt_congr path hstored]

theorem Traced.append {patches : List Groups} {patch : Groups} {path : List String} {value : Option Json}
    (h : Traced first patches path value) (hpatch : setsSetting patch path = false ∨
      ∃ earlier ∈ patches, setsSetting earlier path = true ∧ value = settingAt earlier path) :
    Traced first (patches ++ [patch]) path value := by
  rcases h with ⟨earlier, hmem, hsets⟩ | ⟨hnone, hvalue⟩
  · exact .inl ⟨earlier, List.mem_append_left _ hmem, hsets⟩
  · rcases hpatch with hpatch | ⟨earlier, hmem, hsets⟩
    · refine .inr ⟨fun p hp => ?_, hvalue⟩
      rcases List.mem_append.1 hp with hp | hp
      · exact hnone p hp
      · rw [List.mem_singleton.1 hp]
        exact hpatch
    · exact .inl ⟨earlier, List.mem_append_left _ hmem, hsets⟩

/-- **Commit.** -/
theorem SettingsKept.commit (h : SettingsKept first db) {locked : Bool} {current data : Groups}
    (hstage : t.stage = .writes locked current) (hread : ReadKept first db t)
    (hdata : appConfigData rules current t.patch = some data) (hcond : MergesOntoRead rules db [] t) :
    SettingsKept first ⟨storedGroups current db.groups data, db.patches ++ [t.patch]⟩ := by
  rw [MergesOntoRead, MergesAt.eq_def, hstage] at hcond
  rw [ReadKept, hstage] at hread
  obtain ⟨hpatch, hmerge, hfresh⟩ := hcond data hdata
  obtain ⟨hcurrent, hrows, hfirst⟩ := hread
  refine ⟨h.objects.stored (objects_deepMerge hcurrent hpatch hmerge), fun group path hplain => ?_⟩
  have hold : ∀ patch ∈ db.patches, hasObject patch (group :: path) = false :=
    fun patch hp => hplain patch (List.mem_append_left _ hp)
  have hnew : hasObject t.patch (group :: path) = false := hplain t.patch (List.mem_append_right _ List.mem_cons_self)
  have htraced := h.traced group path hold
  have hvalue := settingAt_deepMerge hnew hmerge
  cases hsets : setsSetting t.patch (group :: path) with
  | false =>
    rw [hsets] at hvalue
    rcases settingAt_stored hpatch hcurrent hmerge hnew hrows hfresh with hstored | ⟨hstored, -⟩
    · rw [hstored, hsets]
      exact htraced.append (.inl hsets)
    · rw [hstored]
      exact htraced.append (.inl hsets)
  | true =>
    rw [hsets, if_pos rfl] at hvalue
    have hlast : Traced first (db.patches ++ [t.patch]) (group :: path) (settingAt t.patch (group :: path)) :=
      .inl ⟨t.patch, List.mem_append_right _ List.mem_cons_self, hsets, rfl⟩
    rcases settingAt_stored hpatch hcurrent hmerge hnew hrows hfresh with hstored | ⟨hstored, hsame⟩
    · rw [hstored, hsets, if_pos rfl]
      exact hlast
    · -- The group is as it was read, so the patch gives what the setting had then.
      rw [hstored]
      rcases htraced with ⟨earlier, hmem, hearlier⟩ | ⟨hnone, hdb⟩
      · exact .inl ⟨earlier, List.mem_append_left _ hmem, hearlier⟩
      · rcases hfirst group path hold with ⟨earlier, hmem, hset⟩ | hcurrentFirst
        · rw [hnone earlier hmem] at hset
          cases hset
        · rw [hdb, ← hcurrentFirst, hsame, hvalue]
          exact hlast

theorem ReadKept.commit (hu : ReadKept first db u) (current data patch : Groups) :
    ReadKept first ⟨storedGroups current db.groups data, db.patches ++ [patch]⟩ u := by
  unfold ReadKept at hu ⊢
  split
  · next locked read hstage =>
    rw [hstage] at hu
    obtain ⟨hobjects, hrows, hfirst⟩ := hu
    refine ⟨hobjects, fun group hgroup => hrows group (lookup_of_storedGroups_eq_none hgroup), ?_⟩
    intro group path hplain
    rcases hfirst group path fun p hp => hplain p (List.mem_append_left _ hp) with ⟨earlier, hmem, hsets⟩ | hvalue
    · exact .inl ⟨earlier, List.mem_append_left _ hmem, hsets⟩
    · exact .inr hvalue
  · trivial

theorem ReadKept.read (h : SettingsKept first db) (locked : Bool) (patch : Groups) :
    ReadKept first db ⟨patch, .writes locked db.groups⟩ := by
  refine ⟨h.objects, fun _ hgroup => hgroup, fun group path hplain => ?_⟩
  rcases h.traced group path hplain with ⟨earlier, hmem, hsets, -⟩ | ⟨-, hvalue⟩
  · exact .inl ⟨earlier, hmem, hsets⟩
  · exact .inr hvalue

/-! ## Runs -/

theorem settingsNext_commits {free : Unit → Bool} {event : Option Unit}
    (h : settingsNext rules db free t = .commits db' event) :
    ∃ locked current data, t.stage = .writes locked current ∧ appConfigData rules current t.patch = some data ∧
      db' = ⟨storedGroups current db.groups data, db.patches ++ [t.patch]⟩ ∧ event = none := by
  unfold settingsNext at h
  split at h
  · split at h
    · rw [Transactions.Outcome.whenFree_eq_commits] at h
      cases h.2
    · cases h
  · cases h
  · next locked current hstage =>
    split at h
    · next data hdata =>
      cases h
      exact ⟨locked, current, data, hstage, hdata, rfl, rfl⟩
    · cases h

theorem settingsNext_continues {free : Unit → Bool} (h : settingsNext rules db free t = .continues u) :
    u.patch = t.patch ∧ ((∃ locked, u.stage = .reads locked ∧ (locked = true → free () = true)) ∨
      ∃ locked, t.stage = .reads locked ∧ u.stage = .writes locked db.groups) := by
  unfold settingsNext at h
  split at h
  · split at h
    · rw [Transactions.Outcome.whenFree_eq_continues] at h
      cases h.2
      exact ⟨rfl, .inl ⟨true, rfl, fun _ => h.1⟩⟩
    · cases h
      exact ⟨rfl, .inl ⟨false, rfl, fun hlocked => by cases hlocked⟩⟩
  · next locked hstage =>
    cases h
    exact ⟨rfl, .inr ⟨locked, hstage, rfl⟩⟩
  · split at h <;> cases h

theorem settings_rules (rules : SettingsRules) (first : Groups) :
    Rules (settingsProtocol rules) (fun db _ => SettingsKept first db) (ReadKept first) (MergesOntoRead rules) where
  start_locks _ := rfl
  start _ _ := trivial
  acquires {db free t u} h k hk := by
    obtain ⟨-, ⟨locked, hstage, hfree⟩ | ⟨locked, hstage, hstage'⟩⟩ := settingsNext_continues h
    · cases locked with
      | true => exact .inr (hfree rfl)
      | false => simp [settingsProtocol, SettingsTxn.locks, hstage] at hk
    · cases locked with
      | true => exact .inl (by simp [settingsProtocol, SettingsTxn.locks, hstage])
      | false => simp [settingsProtocol, SettingsTxn.locks, hstage'] at hk
  continues {db log free t u} hI _ _ h := by
    obtain ⟨-, ⟨locked, hstage, -⟩ | ⟨locked, -, hstage⟩⟩ := settingsNext_continues h
    · simp [ReadKept, hstage]
    · have hread := ReadKept.read hI locked u.patch
      rw [← hstage] at hread
      exact hread
  commits hI hT hC h := by
    obtain ⟨locked, current, data, hstage, hdata, rfl, rfl⟩ := settingsNext_commits h
    exact hI.commit hstage hT hdata hC
  frame _ _ hu _ _ h := by
    obtain ⟨locked, current, data, -, -, rfl, rfl⟩ := settingsNext_commits h
    exact hu.commit current data _

theorem settingsKept_start (hfirst : Objects first) : SettingsKept first ⟨first, []⟩ :=
  ⟨hfirst, fun _ _ _ => .inr ⟨fun _ hp => (by cases hp), rfl⟩⟩

end

def plainRules : SettingsRules := ⟨"2024-05-01T00:00:00+00:00", fun v _ => some v, fun _ _ => true⟩

def backupGroups : Groups :=
  [("backup", .dict [("intervalHours", .num 24), ("lastRunStatus", .str "idle")])]

def intervalPatch : Groups := [("backup", .dict [("intervalHours", .num 12)])]

/-- `_store_backup_status`. -/
def statusPatch : Groups := [("backup", .dict [("lastRunStatus", .str "running")])]

/-- One request after the other. -/
def inTurn : List (Transactions.Action Groups) :=
  [.start intervalPatch, .advance 1, .advance 1, .advance 1, .start statusPatch, .advance 2, .advance 2, .advance 2]

end LcsSystem
