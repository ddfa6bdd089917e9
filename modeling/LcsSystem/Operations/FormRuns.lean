import LcsSystem.Operations.ShownForms
import LcsSystem.MasterData.VersionRuns
import LcsSystem.Lib.Listing

/-!
# A published form stays as it was

A publish freezes the live configuration, and an order that is pinned to the version goes on showing it. What it shows is
what the live path showed at the publish if and only if positions that tie are in the order of the codes, and no
membership has a width of its own.
-/

namespace LcsSystem
open Relational Checks Transition

/-! ## Orders -/

instance {α : Type} (order : α → ℤ) : Std.Total (displayOrder order) := ⟨fun a b => by
  unfold displayOrder
  omega⟩

instance {α : Type} (order : α → ℤ) : IsTrans (ℕ × α) (displayOrder order) := ⟨fun a b c => by
  unfold displayOrder
  omega⟩

instance {α : Type} (order : α → ℤ) (code : α → String) : Std.Total (entryOrder order code) := ⟨fun a b => by
  unfold entryOrder
  rcases lt_trichotomy (order a) (order b) with h | h | h
  · exact .inl (.inl h)
  · by_cases hcode : code b < code a
    · exact .inr (.inr ⟨h.symm, hcode.not_gt⟩)
    · exact .inl (.inr ⟨h, hcode⟩)
  · exact .inr (.inl h)⟩

instance {α : Type} (order : α → ℤ) (code : α → String) : IsTrans α (entryOrder order code) := ⟨fun a b c h h' => by
  unfold entryOrder at h h' ⊢
  rcases h with h | ⟨h, hcode⟩
  · rcases h' with h' | ⟨h', -⟩
    · exact .inl (h.trans h')
    · exact .inl (h' ▸ h)
  · rcases h' with h' | ⟨h', hcode'⟩
    · exact .inl (h ▸ h')
    · exact .inr ⟨h.trans h', not_lt.2 ((not_lt.1 hcode).trans (not_lt.1 hcode'))⟩⟩

/-- All that a form shows stands by position, and by code where positions tie. -/
structure InCodeOrder (tabs : List ShownTab) : Prop where
  ofTabs : tabs.Pairwise (entryOrder ShownTab.displayOrder ShownTab.code)
  ofGroups : ∀ tab ∈ tabs, tab.groups.Pairwise (entryOrder ShownGroup.displayOrder ShownGroup.code)
  ofAttributes : ∀ tab ∈ tabs, ∀ group ∈ tab.groups,
    group.attributes.Pairwise (entryOrder ShownAttribute.sortOrder ShownAttribute.code)

/-- A membership has no width of its own, or that of its attribute. -/
def PlainWidths (config : Configuration) (directionId : ℕ) : Prop :=
  ∀ tab ∈ directionTabs config directionId, ∀ link ∈ activeTabGroups config fun link => link.tabId == tab.1,
    ∀ member ∈ groupAttributes config link.1.2.groupId, ∀ width ∈ member.1.width, width ≠ "" → member.2.2.width = some width

/-! ## Selected rows -/

section
variable {config : Configuration}

theorem filter_activeTabGroups (wanted q : ComponentTabGroup → Bool) :
    (activeTabGroups config wanted).filter (fun link => q link.1.2) =
      activeTabGroups config fun link => q link && wanted link := by
  unfold activeTabGroups
  rw [Table.filter_filterMap_select (q := q)]
  · simp only [Bool.and_assoc]
  · intro link out hout
    obtain ⟨group, -, rfl⟩ := Option.map_eq_some_iff.1 hout
    rfl

theorem filter_activeMemberships (wanted q : ComponentGroupAttribute → Bool) :
    (activeMemberships config wanted).filter (fun member => q member.1) =
      activeMemberships config fun membership => q membership && wanted membership := by
  unfold activeMemberships
  rw [Table.filter_filterMap_select (q := q)]
  · simp only [Bool.and_assoc]
  · intro membership out hout
    obtain ⟨a, -, rfl⟩ := Option.map_eq_some_iff.1 hout
    rfl

theorem mem_activeTabGroups {wanted : ComponentTabGroup → Bool} {link : (ℕ × ComponentTabGroup) × ComponentGroup}
    (h : link ∈ activeTabGroups config wanted) : wanted link.1.2 = true := by
  obtain ⟨row, hrow, hout⟩ := List.mem_filterMap.1 h
  obtain ⟨group, -, rfl⟩ := Option.map_eq_some_iff.1 hout
  rw [List.mem_insertionSort, Table.mem_select, Bool.and_eq_true] at hrow
  exact hrow.2.1

theorem mem_liveTabs {directionId : ℕ} {tab : ℕ × ComponentTab} (htab : tab ∈ directionTabs config directionId) :
    tab ∈ liveTabs config := by
  obtain ⟨id, row⟩ := tab
  rw [directionTabs, List.mem_insertionSort, Table.mem_select, Bool.and_eq_true] at htab
  rw [liveTabs, List.mem_insertionSort, Table.mem_select]
  exact ⟨htab.1, htab.2.2⟩

/-! ## What a snapshot holds -/

/-- The entry of a tab, as `live_snapshot` puts it together. -/
def liveEntry (config : Configuration) (tab : ℕ × ComponentTab) : TabEntry :=
  tabEntry tab (groupEntriesOf (tabGroupsOf config (liveTabs config))
    (membershipsOf config (tabGroupsOf config (liveTabs config))) tab.1)

/-- The entries of a direction's tabs. -/
theorem filter_tabs_liveSnapshot (directionId : ℕ) :
    (liveSnapshot config).tabs.filter (fun tab => tab.tradeDirectionId == some directionId) =
      ((directionTabs config directionId).map (liveEntry config)).insertionSort
        (entryOrder TabEntry.displayOrder TabEntry.code) := by
  have htabs : directionTabs config directionId =
      (liveTabs config).filter fun tab => tab.2.tradeDirectionId == some directionId := by
    rw [directionTabs, liveTabs, filter_insertionSort, Table.select, Table.select, List.filter_filter]
  simp only [liveSnapshot, assembleSnapshot, buildSnapshot]
  rw [filter_insertionSort, List.filter_map, htabs]
  rfl

theorem filter_tabGroupsOf {tab : ℕ × ComponentTab} (htab : tab ∈ liveTabs config) :
    (tabGroupsOf config (liveTabs config)).filter (fun link => link.1.2.tabId == tab.1) =
      activeTabGroups config fun link => link.tabId == tab.1 := by
  rw [tabGroupsOf, filter_activeTabGroups _ fun link => link.tabId == tab.1]
  congr 1
  funext link
  by_cases hlink : link.tabId = tab.1
  · have hany : ((liveTabs config).any fun tab => tab.1 == link.tabId) = true :=
      List.any_eq_true.2 ⟨tab, htab, beq_iff_eq.2 hlink.symm⟩
    rw [hany, Bool.and_true]
  · rw [beq_false_of_ne hlink, Bool.false_and]

/-- The entries of a tab's groups. -/
theorem groupEntriesOf_liveTabs {tab : ℕ × ComponentTab} (htab : tab ∈ liveTabs config)
    (memberships : List (ComponentGroupAttribute × (ℕ × ComponentAttribute))) :
    groupEntriesOf (tabGroupsOf config (liveTabs config)) memberships tab.1 =
      (activeTabGroups config fun link => link.tabId == tab.1).map fun link =>
        groupEntry link.1 link.2 (attributeEntriesOf memberships link.1.2.groupId) := by
  rw [groupEntriesOf, filter_tabGroupsOf htab]

/-- The visible entries of a group's attributes. -/
theorem filter_attributeEntriesOf {link : (ℕ × ComponentTabGroup) × ComponentGroup}
    {tabGroups : List ((ℕ × ComponentTabGroup) × ComponentGroup)} (hlink : link ∈ tabGroups) :
    (attributeEntriesOf (membershipsOf config tabGroups) link.1.2.groupId).filter AttributeEntry.isVisible =
      (groupAttributes config link.1.2.groupId).map fun member => attributeEntry member.2 member.1 := by
  rw [attributeEntriesOf, List.filter_map, List.filter_filter, membershipsOf]
  change ((activeMemberships config _).filter fun member => member.1.isVisible && member.1.groupId == link.1.2.groupId).map _ = _
  rw [filter_activeMemberships _ fun m => m.isVisible && m.groupId == link.1.2.groupId, groupAttributes]
  congr 2
  funext m
  by_cases hm : m.groupId = link.1.2.groupId
  · have hany : (tabGroups.any fun link => link.1.2.groupId == m.groupId) = true :=
      List.any_eq_true.2 ⟨link, hlink, beq_iff_eq.2 hm.symm⟩
    rw [hany, Bool.and_true, Bool.and_comm]
  · rw [beq_false_of_ne hm, Bool.and_false, Bool.false_and, Bool.false_and]

/-! ## The two paths -/

variable {rows : ℕ → List ShownRow}

theorem shown_attributeEntry_iff {member : ComponentGroupAttribute × (ℕ × ComponentAttribute)} :
    (attributeEntry member.2 member.1).shown = attributePayload member ↔
      ∀ width ∈ member.1.width, width ≠ "" → member.2.2.width = some width := by
  have hwidth : (attributeEntry member.2 member.1).shown = attributePayload member ↔
      member.2.2.width = (member.1.width.filter (· ≠ "")).or member.2.2.width := by
    rw [AttributeEntry.shown, attributeEntry, attributePayload, ShownAttribute.mk.injEq]
    simp
  rw [hwidth]
  cases hw : member.1.width with
  | none => simp
  | some width => by_cases hempty : width = "" <;> simp [Option.filter_some, hempty]

theorem layoutEntry_eq (link : ComponentTabGroup) (group : ComponentGroup) :
    layoutEntry group.renderMode link = resolveLayout link group := by
  cases hmode : group.renderMode <;> simp [layoutEntry, resolveLayout, RenderMode.legacyLayout, hmode]

/-- A group is shown alike if its attributes are. -/
theorem shown_groupEntry_iff {link : (ℕ × ComponentTabGroup) × ComponentGroup} {entries : List AttributeEntry}
    (hentries : entries.filter AttributeEntry.isVisible =
      (groupAttributes config link.1.2.groupId).map fun member => attributeEntry member.2 member.1)
    (hcolumns : (resolveLayout link.1.2 link.2).formColumns ≠ 0) :
    (groupEntry link.1 link.2 entries).shown rows =
        groupPayload rows ((groupAttributes config link.1.2.groupId).map attributePayload) link ↔
      ((groupAttributes config link.1.2.groupId).map attributePayload).Pairwise
          (entryOrder ShownAttribute.sortOrder ShownAttribute.code) ∧
        ∀ member ∈ groupAttributes config link.1.2.groupId, ∀ width ∈ member.1.width, width ≠ "" →
          member.2.2.width = some width := by
  have hattributes : (groupEntry link.1 link.2 entries).shown rows =
        groupPayload rows ((groupAttributes config link.1.2.groupId).map attributePayload) link ↔
      ((sortAttributes entries).filter AttributeEntry.isVisible).map AttributeEntry.shown =
        (groupAttributes config link.1.2.groupId).map attributePayload := by
    rw [GroupEntry.shown, groupEntry, groupPayload, ShownGroup.mk.injEq, layoutEntry_eq, if_neg hcolumns]
    simp
  rw [hattributes, sortAttributes, filter_insertionSort, hentries]
  refine (map_insertionSort_eq_iff (t := entryOrder ShownAttribute.sortOrder ShownAttribute.code)
    (s := entryOrder AttributeEntry.displayOrder AttributeEntry.code) (fun _ _ => Iff.rfl) fun _ _ => Iff.rfl).trans ?_
  exact and_congr_right fun _ => forall₂_congr fun _ _ => shown_attributeEntry_iff

/-- A tab is shown alike if its groups are in order and each of them is. -/
theorem shown_tabEntry_iff {tab : ℕ × ComponentTab} (htab : tab ∈ liveTabs config)
    (hcolumns : ∀ link ∈ activeTabGroups config fun link => link.tabId == tab.1,
      (resolveLayout link.1.2 link.2).formColumns ≠ 0) :
    (liveEntry config tab).shown rows =
        ⟨tab.1, tab.2.code, tab.2.name, tab.2.displayOrder, liveGroups config tab.1 rows⟩ ↔
      (liveGroups config tab.1 rows).Pairwise (entryOrder ShownGroup.displayOrder ShownGroup.code) ∧
        ∀ link ∈ activeTabGroups config fun link => link.tabId == tab.1,
          ((groupAttributes config link.1.2.groupId).map attributePayload).Pairwise
              (entryOrder ShownAttribute.sortOrder ShownAttribute.code) ∧
            ∀ member ∈ groupAttributes config link.1.2.groupId, ∀ width ∈ member.1.width, width ≠ "" →
              member.2.2.width = some width := by
  have hgroups (entries : List GroupEntry) : (tabEntry tab entries).shown rows =
        ⟨tab.1, tab.2.code, tab.2.name, tab.2.displayOrder, liveGroups config tab.1 rows⟩ ↔
      (sortGroups entries).map (GroupEntry.shown rows) = liveGroups config tab.1 rows := by
    rw [TabEntry.shown, tabEntry, ShownTab.mk.injEq]
    simp
  rw [liveEntry, hgroups, groupEntriesOf_liveTabs htab, sortGroups, liveGroups]
  refine (map_insertionSort_eq_iff (t := entryOrder ShownGroup.displayOrder ShownGroup.code)
    (s := entryOrder GroupEntry.displayOrder GroupEntry.code) (fun _ _ => Iff.rfl) fun _ _ => Iff.rfl).trans ?_
  refine and_congr_right fun _ => forall₂_congr fun link hlink => ?_
  have hmem : link ∈ tabGroupsOf config (liveTabs config) := by
    rw [← filter_tabGroupsOf htab] at hlink
    exact (List.mem_filter.1 hlink).1
  exact shown_groupEntry_iff (filter_attributeEntriesOf hmem) (hcolumns link hlink)

/-- **The snapshot shows what the live path shows** if and only if positions that tie are in the order of the codes and no
membership has a width of its own. -/
theorem snapshotTabs_liveSnapshot_iff (directionId : ℕ)
    (hcolumns : ∀ tab ∈ directionTabs config directionId, ∀ link ∈ activeTabGroups config fun link => link.tabId == tab.1,
      (resolveLayout link.1.2 link.2).formColumns ≠ 0) :
    snapshotTabs (liveSnapshot config) directionId rows = liveFormTabs config directionId rows ↔
      InCodeOrder (liveFormTabs config directionId rows) ∧ PlainWidths config directionId := by
  rw [snapshotTabs, filter_tabs_liveSnapshot, liveFormTabs]
  refine (map_insertionSort_eq_iff (t := entryOrder ShownTab.displayOrder ShownTab.code)
    (s := entryOrder TabEntry.displayOrder TabEntry.code) (fun _ _ => Iff.rfl) fun _ _ => Iff.rfl).trans ?_
  constructor
  · rintro ⟨htabs, hrows⟩
    have hspec := fun tab htab => (shown_tabEntry_iff (mem_liveTabs htab) (hcolumns tab htab)).1 (hrows tab htab)
    refine ⟨⟨htabs, ?_, ?_⟩, fun tab htab link hlink => ((hspec tab htab).2 link hlink).2⟩
    · intro shown hshown
      obtain ⟨tab, htab, rfl⟩ := List.mem_map.1 hshown
      exact (hspec tab htab).1
    · intro shown hshown group hgroup
      obtain ⟨tab, htab, rfl⟩ := List.mem_map.1 hshown
      obtain ⟨link, hlink, rfl⟩ := List.mem_map.1 hgroup
      exact ((hspec tab htab).2 link hlink).1
  · rintro ⟨horder, hwidths⟩
    refine ⟨horder.ofTabs, fun tab htab => (shown_tabEntry_iff (mem_liveTabs htab) (hcolumns tab htab)).2 ?_⟩
    have hmem := List.mem_map_of_mem (f := fun tab : ℕ × ComponentTab =>
      (⟨tab.1, tab.2.code, tab.2.name, tab.2.displayOrder, liveGroups config tab.1 rows⟩ : ShownTab)) htab
    refine ⟨horder.ofGroups _ hmem, fun link hlink => ⟨?_, hwidths tab htab link hlink⟩⟩
    exact horder.ofAttributes _ hmem _ (List.mem_map_of_mem hlink)

/-! ## A published snapshot -/

theorem formColumns_of_validateSnapshot {snapshot : Snapshot} (h : validateSnapshot snapshot = []) {tab : TabEntry}
    (htab : tab ∈ snapshot.tabs) {group : GroupEntry} (hgroup : group ∈ tab.groups) : group.layout.formColumns ≠ 0 := by
  intro hzero
  unfold validateSnapshot at h
  split at h
  · cases h
  · rw [List.flatten_eq_nil_iff] at h
    obtain ⟨i, hi⟩ := List.mem_iff_getElem?.1 htab
    obtain ⟨j, hj⟩ := List.mem_iff_getElem?.1 hgroup
    have htabErrors := h _ (List.mem_map_of_mem (a := (tab, i)) (List.mem_zipIdx_iff_getElem?.2 hi))
    change tabErrors ("tabs." ++ toString i) tab = [] at htabErrors
    rw [tabErrors, List.append_eq_nil_iff, List.flatten_eq_nil_iff] at htabErrors
    have hgroupErrors := htabErrors.2 _ (List.mem_map_of_mem (a := (group, j)) (List.mem_zipIdx_iff_getElem?.2 hj))
    simp [groupErrors, hzero] at hgroupErrors

/-- The columns of the groups of a snapshot that passes its checks. -/
theorem formColumns_ne_zero (h : validateSnapshot (liveSnapshot config) = []) {directionId : ℕ} :
    ∀ tab ∈ directionTabs config directionId, ∀ link ∈ activeTabGroups config fun link => link.tabId == tab.1,
      (resolveLayout link.1.2 link.2).formColumns ≠ 0 := by
  intro tab htab link hlink
  have hentries := List.mem_map_of_mem (f := liveEntry config) htab
  rw [← List.mem_insertionSort (r := entryOrder TabEntry.displayOrder TabEntry.code),
    ← filter_tabs_liveSnapshot directionId] at hentries
  rw [← layoutEntry_eq]
  have hgroup : groupEntry link.1 link.2 (attributeEntriesOf (membershipsOf config (tabGroupsOf config (liveTabs config)))
      link.1.2.groupId) ∈ (liveEntry config tab).groups := by
    rw [liveEntry, tabEntry, sortGroups, List.mem_insertionSort, groupEntriesOf_liveTabs (mem_liveTabs htab)]
    exact List.mem_map_of_mem hlink
  exact formColumns_of_validateSnapshot h (List.mem_filter.1 hentries).1 hgroup

end

/-! ## Runs -/

/-- Requests on versions; all else that is committed, which leaves the versions alone. -/
inductive FormAction
  | version (a : VersionAction)
  | commit (config : Configuration) (rows : Table ComponentRow) (orders : Table FormOrder)
      (referenceIds : String → ℕ → List ℤ)

section
variable (hash : Snapshot → String)

def formStep (db : ConfigDb) : FormAction → ConfigDb
  | .version a => versionStep hash db a
  | .commit config rows orders referenceIds =>
    { config with versions := db.versions, rows := rows, orders := orders, referenceIds := referenceIds }

/-- `publish`, when nothing else is committed meanwhile. -/
def publishLive (db : ConfigDb) (changeNote : Option String) (userId : Option ℕ) : Result (ConfigDb × ℕ) := do
  checkPublish db (liveSnapshot db.toConfiguration)
  publishSnapshot hash db (liveSnapshot db.toConfiguration) changeNote userId

end

section
variable {hash : Snapshot → String} {db db' : ConfigDb} {changeNote : Option String} {userId : Option ℕ} {id : ℕ}

/-- What a publish stores. -/
theorem publishLive_spec (h : publishLive hash db changeNote userId = .ok (db', id)) :
    db' = versionStep hash db (.publish db (liveSnapshot db.toConfiguration) changeNote userId) ∧
      validateSnapshot (liveSnapshot db.toConfiguration) = [] ∧ ∃ v, db'.versions.get? id = some v ∧
        v.status = .published ∧ v.configSnapshot = liveSnapshot db.toConfiguration := by
  simp only [publishLive, bind_eq_ok] at h
  obtain ⟨_, hcheck, hpublish⟩ := h
  have hstep : db' = versionStep hash db (.publish db (liveSnapshot db.toConfiguration) changeNote userId) := by
    simp only [versionStep, VersionAction.request, hcheck, hpublish]
    rfl
  simp only [checkPublish, bind_eq_ok, check_eq_ok] at hcheck
  obtain ⟨_, hvalid, -⟩ := hcheck
  refine ⟨hstep, hvalid, ?_⟩
  simp only [publishSnapshot, insertVersion, bind_eq_ok, pure_eq_ok, Prod.mk.injEq] at hpublish
  obtain ⟨_, -, _, -, rfl, rfl⟩ := hpublish
  exact ⟨_, Table.get?_insert_self _ _, rfl, rfl⟩

theorem formStep_keeps (h : VersionsKept hash db) (a : FormAction) :
    VersionsKept hash (formStep hash db a) ∧ VersionsAfter db (formStep hash db a) := by
  cases a with
  | version a =>
    obtain ⟨hkept, hafter, -⟩ := (versionStep_write a).keeps h
    exact ⟨hkept, hafter⟩
  | commit config rows orders referenceIds =>
    refine ⟨⟨h.oneLive, h.numbers, h.hashed⟩, ⟨le_rfl, fun i v hv _ => ⟨v, hv, rfl, rfl, rfl⟩, fun i v hv hleft => ⟨v, hv, hleft⟩, ?_⟩⟩
    exact fun hlive => hlive

/-- The snapshot of a version that is no draft stays. -/
theorem snapshot_kept (h : VersionsKept hash db) {v : ConfigurationVersion} (hv : db.versions.get? id = some v)
    (hstatus : v.status ≠ .draft) (as : List FormAction) :
    ∃ v', (run (formStep hash) db as).versions.get? id = some v' ∧ v'.configSnapshot = v.configSnapshot := by
  have hafter : VersionsAfter db (run (formStep hash) db as) := by
    refine run_relation_of_meets (P := fun _ _ => True) (VersionsKept hash) VersionsAfter VersionsAfter.refl
      (fun hab hbc => hab.trans hbc) (fun db a h _ => (formStep_keeps h a).1) (fun db a h _ => (formStep_keeps h a).2) h ?_
    exact meets_of_forall_mem fun _ _ _ => trivial
  obtain ⟨v', hv', -⟩ := hafter.kept id v hv hstatus
  obtain ⟨w, hw, -, -, hsnapshot⟩ := hafter.frozen id v' hv' (Table.lt_nextId hv)
  rw [hv, Option.some.injEq] at hw
  exact ⟨v', hv', hw ▸ hsnapshot⟩

/-- What an order shows that is pinned to a version with tabs. -/
theorem tabs_bootstrap {orderId : ℕ} {order : FormOrder} {v : ConfigurationVersion} (directionId : Option ℕ)
    (horder : db.orders.get? orderId = some order) (hpin : order.configurationVersionId = some id)
    (hv : db.versions.get? id = some v) (htabs : v.configSnapshot.tabs ≠ []) :
    ShownForm.tabs <$> bootstrap db orderId directionId =
      .ok (snapshotTabs v.configSnapshot (selectedDirection order directionId) (rowsByGroup db orderId)) := by
  have hform : formTabs db orderId order directionId =
      snapshotTabs v.configSnapshot (selectedDirection order directionId) (rowsByGroup db orderId) := by
    simp only [formTabs, versionForOrder, hpin, Option.bind_some, hv, Option.map_some, Option.getD_some]
    rw [if_pos htabs]
  rw [← hform, bootstrap, horder]
  rfl

/-- **A published form stays as it was**: whatever requests and commits follow a publish, an order that is pinned to the
version shows the tabs that were live at the publish, if and only if positions that tied were in the order of the codes and
no membership had a width of its own. -/
theorem published_form_stays (hdb : VersionsKept hash db) (hpublish : publishLive hash db changeNote userId = .ok (db', id))
    (as : List FormAction) {orderId : ℕ} {order : FormOrder} (directionId : Option ℕ)
    (horder : (run (formStep hash) db' as).orders.get? orderId = some order)
    (hpin : order.configurationVersionId = some id) :
    ShownForm.tabs <$> bootstrap (run (formStep hash) db' as) orderId directionId =
        .ok (liveFormTabs db.toConfiguration (selectedDirection order directionId)
          (rowsByGroup (run (formStep hash) db' as) orderId)) ↔
      InCodeOrder (liveFormTabs db.toConfiguration (selectedDirection order directionId)
          (rowsByGroup (run (formStep hash) db' as) orderId)) ∧
        PlainWidths db.toConfiguration (selectedDirection order directionId) := by
  obtain ⟨hstep, hvalid, v, hv, hstatus, hsnapshot⟩ := publishLive_spec hpublish
  have hkept : VersionsKept hash db' := hstep ▸ ((versionStep_write _).keeps hdb).1
  have hleft : v.status ≠ .draft := by
    rw [hstatus]
    decide
  obtain ⟨v', hv', hsame⟩ := snapshot_kept hkept hv hleft as
  rw [hsnapshot] at hsame
  have htabs : v'.configSnapshot.tabs ≠ [] := by
    rw [hsame]
    intro hnil
    rw [validateSnapshot, if_pos hnil] at hvalid
    cases hvalid
  rw [tabs_bootstrap directionId horder hpin hv' htabs, hsame, Except.ok.injEq]
  exact snapshotTabs_liveSnapshot_iff _ (formColumns_ne_zero hvalid)

end

/-! ## One order -/

/-- The booking form, published. -/
def publishedForm : ConfigDb :=
  (((publishLive tabDigest unpublishedForm none none).toOption).map Prod.fst).getD unpublishedForm

theorem publishLive_unpublishedForm : publishLive tabDigest unpublishedForm none none = .ok (publishedForm, 1) := by rfl

/-- An order is pinned to the version, and the tab gets another name. -/
def renamedLater : List FormAction :=
  [.commit { bookingForm with tabs := Table.empty.insert ⟨"general", "Renamed", some 1, 10, true, false, some 1⟩ } .empty
    (Table.empty.insert ⟨some 1, 1⟩) fun _ _ => []]

theorem orders_renamedLater :
    (run (formStep tabDigest) publishedForm renamedLater).orders.get? 1 = some ⟨some 1, 1⟩ := by rfl

theorem published_form_stays_renamedLater :
    ShownForm.tabs <$> bootstrap (run (formStep tabDigest) publishedForm renamedLater) 1 none =
        .ok (liveFormTabs bookingForm 1 (rowsByGroup (run (formStep tabDigest) publishedForm renamedLater) 1)) ↔
      InCodeOrder (liveFormTabs bookingForm 1 (rowsByGroup (run (formStep tabDigest) publishedForm renamedLater) 1)) ∧
        PlainWidths bookingForm 1 :=
  published_form_stays (unpublishedForm_kept tabDigest) publishLive_unpublishedForm renamedLater none orders_renamedLater rfl

example : (ShownForm.tabs <$> bootstrap (run (formStep tabDigest) publishedForm renamedLater) 1 none).toOption.map
    (fun tabs => tabs.map ShownTab.name) = some ["General"] := by decide +kernel

end LcsSystem
