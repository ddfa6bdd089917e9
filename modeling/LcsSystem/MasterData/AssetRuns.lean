import LcsSystem.Lib.Entries
import LcsSystem.Lib.Transition
import LcsSystem.MasterData.AssetResaves

/-!
# Assets under a changing vocabulary

What holds of every asset over any sequence of requests on assets and on identity types. `Careful` says which requests keep
every asset described by its type; the others let a name pass to a row that refuses the assets that bear it, or give an
asset a type that nobody checked.
-/

namespace LcsSystem.Assets
open Relational Checks DecimalArith Transition

/-! ## Careful requests -/

/-- Of the value, where there is one. -/
def WhenOk {α : Type} (x : Result α) (P : α → Prop) : Prop :=
  match x with
  | .ok a => P a
  | .error _ => True

instance WhenOk.decidable {α : Type} (x : Result α) (P : α → Prop) [DecidablePred P] : Decidable (WhenOk x P) :=
  match x with
  | .ok a => inferInstanceAs (Decidable (P a))
  | .error _ => .isTrue trivial

section
variable (compile : Compile) (dir : Directory)

/-- A live type is given this name and link: it describes the assets that bear the name, and its pattern accepts the assets
without a type that it may be given to. -/
def TakesWell (s : Store) (t : IdentityType) : Prop :=
  ∀ e ∈ s.assets.rows,
    (e.2.identityType = t.name → t.fits e.2.transportTypeId = true ∧ patternAccepts compile t e.2.identity = true) ∧
      (e.2.identityType = "" → t.fits e.2.transportTypeId = true → patternAccepts compile t e.2.identity = true)

/-- The name is left to the archived rows, and the first of them accepts the assets that bear it. -/
def LeavesWell (s : Store) (types : Table IdentityType) (name : String) : Prop :=
  ∀ e ∈ s.assets.rows, e.2.identityType = name → ∀ t ∈ archivedNamed types name, patternAccepts compile t e.2.identity = true

/-- The references are read back as they are stored. Where the asset is given a type, its name is no alias of another, and
an identity that is not submitted with it matches. -/
def CarefulSave (s : Store) (current : Asset) (p : AssetPayload) : Prop :=
  WhenOk (applyAssetInput dir current p) fun row =>
    LeadsBack dir row ∧ (strip row.identityType = "" → ∀ t ∈ firstApplicable s.identityTypes row.transportTypeId,
      canonicalType t.name = t.name ∧ (p.identity.get? = none → patternAccepts compile t row.identity = true))

def Careful (s : Store) : Action → Prop
  | .createAsset body => CarefulSave compile dir s newAsset (assetTransform body).normalized
  | .updateAsset id body => ∀ current ∈ s.assets.get? id, CarefulSave compile dir s current (assetTransform body).normalized
  | .createType body => (createType compile dir s body).isOk = true →
    WhenOk (applyTypeInput dir newIdentityType (identityTypeTransform body).normalized) (TakesWell compile s)
  | .updateType id body => (updateType compile dir s id body).isOk = true → ∀ current ∈ s.identityTypes.get? id,
    WhenOk (applyTypeInput dir current (identityTypeTransform body).normalized) fun t =>
      TakesWell compile s t ∧ (t.name ≠ current.name → LeavesWell compile s s.identityTypes current.name)
  | .archiveType id => (archiveType s id).isOk = true → ∀ current ∈ s.identityTypes.get? id,
    LeavesWell compile s (archivedBy s.identityTypes id) current.name

/-! ## What the database holds -/

structure Sound (s : Store) : Prop where
  types : TypesOk compile s.identityTypes
  assets : ∀ id row, s.assets.get? id = some row → AssetOk dir row
  codes : s.assets.UniqueBy fun row => some row.assetCode
  identities : s.assets.UniqueBy fun row => some (row.transportTypeId, row.identity)

/-- Every asset can be submitted again. -/
def AllKept (s : Store) : Prop := ∀ id row, s.assets.get? id = some row → Kept compile dir s.identityTypes row

end

section
variable {compile : Compile} {dir : Directory} {s s' : Store} {types : Table IdentityType} {t current : IdentityType}
  {id : ℕ} {row : Asset}

theorem sound_empty : Sound compile dir .empty where
  types := ⟨fun id t h => (by cases h), Table.uniqueBy_empty⟩
  assets := fun id row h => (by cases h)
  codes := Table.uniqueBy_empty
  identities := Table.uniqueBy_empty

theorem allKept_empty : AllKept compile dir .empty := fun id row h => (by cases h)

/-! ## Identity types -/

theorem free_of_flush {id : ℕ} (hlive : t.deleted = false)
    (h : ∀ e ∈ types.rows, e.1 = id ∨ e.2.deleted = true ∨ e.2.name ≠ t.name) :
    Table.Free IdentityType.liveName types id t := by
  refine Table.free_of_forall fun e he => (h e he).imp_right fun hother k hk hsame => ?_
  rw [IdentityType.liveName, hlive] at hk
  obtain rfl := Option.some.inj hk
  rcases hother with hdeleted | hname
  · simp [IdentityType.liveName, hdeleted] at hsame
  · rw [IdentityType.liveName] at hsame
    split at hsame
    · cases hsame
    · exact hname (Option.some.inj hsame)

theorem typesOk_insert (htypes : TypesOk compile types) (hok : TypeOk compile t)
    (hfree : Table.Free IdentityType.liveName types types.nextId t) : TypesOk compile (types.insert t) :=
  ⟨Table.forall_insert htypes.ok hok, Table.uniqueBy_insert htypes.unique hfree⟩

theorem typesOk_update (htypes : TypesOk compile types) (hcurrent : types.get? id = some current) (hok : TypeOk compile t)
    (hfree : Table.Free IdentityType.liveName types id t) : TypesOk compile (types.modify id fun _ => t) :=
  ⟨Table.forall_modify hcurrent htypes.ok hok, Table.uniqueBy_modify hcurrent htypes.unique hfree⟩

theorem typesOk_archive (htypes : TypesOk compile types) (hcurrent : types.get? id = some current) :
    TypesOk compile (archivedBy types id) :=
  ⟨Table.forall_modify hcurrent htypes.ok ⟨(htypes.ok id current hcurrent).name, (htypes.ok id current hcurrent).pattern⟩,
    Table.uniqueBy_modify hcurrent htypes.unique (Table.free_of_none rfl)⟩

theorem typeOk_of_request {isPartial : Bool} {data : IdentityTypePayload} {u : PUnit} (hitems : data.items isPartial = [])
    (happlies : applyTypeInput dir current data.normalized = .ok t) (hpattern : validatePattern compile data.normalized = .ok u)
    (hcurrent : isPartial = true → TypeOk compile current) (hnew : isPartial = false → current = newIdentityType) :
    TypeOk compile t ∧ t.deleted = current.deleted := by
  simp only [IdentityTypePayload.items, List.append_eq_nil_iff] at hitems
  simp only [applyTypeInput, bind_eq_ok, pure_eq_ok] at happlies
  obtain ⟨transportType, -, rfl⟩ := happlies
  refine ⟨⟨reads_getD hitems.1.1.1.1.1 fun hupdate => (hcurrent hupdate).name, fun pattern hmem => ?_⟩, rfl⟩
  simp only [replaced] at hmem
  split at hmem
  · -- A pattern that is sent was compiled.
    have hsource : data.validationPattern.text.get? = some pattern := hmem
    obtain ⟨hstrip, hne⟩ := text_get?_eq_some hsource
    have hget : data.normalized.validationPattern.get? = some pattern := hsource
    simp only [validatePattern, hget, bind_eq_ok] at hpattern
    obtain ⟨-, -, hcompile⟩ := hpattern
    refine ⟨hne, ?_⟩
    rw [hstrip]
    cases hc : compile pattern with
    | ok fullmatch => exact ⟨fullmatch, rfl⟩
    | error what =>
      rw [hc] at hcompile
      cases hcompile
  · cases isPartial with
    | true => exact (hcurrent rfl).pattern pattern hmem
    | false =>
      rw [hnew rfl] at hmem
      cases hmem

theorem written_of_createType {body : IdentityTypePayload} (h : createType compile dir s body = .ok s') :
    ∃ t, applyTypeInput dir newIdentityType (identityTypeTransform body).normalized = .ok t ∧ t.deleted = false ∧
      TypeOk compile t ∧ Table.Free IdentityType.liveName s.identityTypes s.identityTypes.nextId t ∧
        s' = { s with identityTypes := s.identityTypes.insert t } := by
  simp only [createType, flushType, bind_eq_ok, validate_eq_ok, check_eq_ok, pure_eq_ok] at h
  obtain ⟨-, hitems, -, -, t, happlies, _, hpattern, -, ⟨-, hfree, -⟩, rfl⟩ := h
  obtain ⟨hok, hdeleted⟩ := typeOk_of_request hitems happlies hpattern (fun h => by cases h) fun _ => rfl
  exact ⟨t, happlies, hdeleted, hok, free_of_flush hdeleted hfree, rfl⟩

theorem written_of_updateType {body : IdentityTypePayload} (hsound : Sound compile dir s)
    (h : updateType compile dir s id body = .ok s') :
    ∃ current t, s.identityTypes.get? id = some current ∧ current.deleted = false ∧
      applyTypeInput dir current (identityTypeTransform body).normalized = .ok t ∧ t.deleted = false ∧ TypeOk compile t ∧
        Table.Free IdentityType.liveName s.identityTypes id t ∧
          s' = { s with identityTypes := s.identityTypes.modify id fun _ => t } := by
  simp only [updateType, flushType, bind_eq_ok, require_eq_ok, validate_eq_ok, check_eq_ok, pure_eq_ok] at h
  obtain ⟨current, hcurrent, -, hitems, -, -, t, happlies, _, hpattern, -, -, -, ⟨-, hfree, -⟩, rfl⟩ := h
  obtain ⟨hget, hlive⟩ := Option.filter_eq_some_iff.1 hcurrent
  rw [Bool.not_eq_true'] at hlive
  obtain ⟨hok, hdeleted⟩ := typeOk_of_request hitems happlies hpattern (fun _ => hsound.types.ok id current hget)
    fun h => by cases h
  rw [hlive] at hdeleted
  exact ⟨current, t, hget, hlive, happlies, hdeleted, hok, free_of_flush hdeleted hfree, rfl⟩

theorem written_of_archiveType (h : archiveType s id = .ok s') : s' = s ∨
    ∃ current, s.identityTypes.get? id = some current ∧ current.deleted = false ∧
      s' = { s with identityTypes := archivedBy s.identityTypes id } := by
  unfold archiveType at h
  cases hget : s.identityTypes.get? id with
  | none =>
    rw [hget] at h
    exact .inl (Except.ok.inj h).symm
  | some current =>
    simp only [hget, bind_eq_ok, check_eq_ok, pure_eq_ok] at h
    obtain ⟨-, -, -, hlive, rfl⟩ := h
    exact .inr ⟨current, rfl, hlive, rfl⟩

/-! ## Assets stay described -/

/-- A type is written for assets that it describes, or that bear neither its old name nor its new one. -/
theorem described_insert (htypes : TypesOk compile (types.insert t)) (hlive : t.deleted = false)
    (htakes : (row.identityType = t.name → t.fits row.transportTypeId = true ∧ patternAccepts compile t row.identity = true) ∧
      (row.identityType = "" → t.fits row.transportTypeId = true → patternAccepts compile t row.identity = true))
    (h : Described compile types row) : Described compile (types.insert t) row := by
  unfold Described at h ⊢
  by_cases hblank : row.identityType = ""
  · rw [if_pos hblank] at h ⊢
    exact Table.forall_insert h fun _ => htakes.2 hblank
  rw [if_neg hblank] at h ⊢
  by_cases hname : row.identityType = t.name
  · rw [hname, liveNamed_of_get? htypes (Table.get?_insert_self types t) hlive]
    exact htakes.1 hname
  · have hlivesame : liveNamed (types.insert t) row.identityType = liveNamed types row.identityType := by
      rw [liveNamed_eq, liveNamed_eq]
      exact Table.find?_values_insert (by simp [Ne.symm hname])
    have harchived : archivedNamed (types.insert t) row.identityType = archivedNamed types row.identityType := by
      rw [archivedNamed_eq, archivedNamed_eq]
      exact Table.find?_values_insert (by simp [hlive])
    rw [hlivesame, harchived]
    exact h

/-- The name of a live row that gives it up has no other live row. -/
theorem liveNamed_given_up {types' : Table IdentityType} {new : IdentityType} (htypes : TypesOk compile types)
    (hcurrent : types.get? id = some current) (hlive : current.deleted = false)
    (hwrite : ∀ i, types'.get? i = if i = id then some new else types.get? i)
    (hnew : new.deleted = true ∨ new.name ≠ current.name) : liveNamed types' current.name = none := by
  refine liveNamed_eq_none.2 fun i u hi hu hname => ?_
  rw [hwrite] at hi
  split at hi
  · obtain rfl := Option.some.inj hi
    rcases hnew with hdeleted | hne
    · rw [hdeleted] at hu
      cases hu
    · exact hne hname
  next hid =>
    refine hid (htypes.unique i id u current current.name hi hcurrent ?_ ?_)
    · simp [IdentityType.liveName, hu, hname]
    · simp [IdentityType.liveName, hlive]

theorem described_update (htypes : TypesOk compile types) (htypes' : TypesOk compile (types.modify id fun _ => t))
    (hcurrent : types.get? id = some current) (hlive : current.deleted = false) (hlive' : t.deleted = false)
    (htakes : (row.identityType = t.name → t.fits row.transportTypeId = true ∧ patternAccepts compile t row.identity = true) ∧
      (row.identityType = "" → t.fits row.transportTypeId = true → patternAccepts compile t row.identity = true))
    (hleaves : t.name ≠ current.name → row.identityType = current.name →
      ∀ old ∈ archivedNamed types current.name, patternAccepts compile old row.identity = true)
    (h : Described compile types row) : Described compile (types.modify id fun _ => t) row := by
  have hwrite := Table.get?_replace (f := fun _ => t) hcurrent
  have harchived : ∀ name, archivedNamed (types.modify id fun _ => t) name = archivedNamed types name := by
    intro name
    rw [archivedNamed_eq, archivedNamed_eq]
    exact Table.find?_values_modify hcurrent (by simp [hlive]) (by simp [hlive'])
  unfold Described at h ⊢
  by_cases hblank : row.identityType = ""
  · rw [if_pos hblank] at h ⊢
    exact Table.forall_modify hcurrent h fun _ => htakes.2 hblank
  rw [if_neg hblank] at h ⊢
  by_cases hname : row.identityType = t.name
  · have hget : (types.modify id fun _ => t).get? id = some t := by
      rw [hwrite, if_pos rfl]
    rw [hname, liveNamed_of_get? htypes' hget hlive']
    exact htakes.1 hname
  by_cases hold : row.identityType = current.name
  · have hne : t.name ≠ current.name := fun hsame => hname (hold.trans hsame.symm)
    rw [hold, liveNamed_given_up htypes hcurrent hlive hwrite (.inr hne), harchived]
    exact hleaves hne hold
  · have hlivesame : liveNamed (types.modify id fun _ => t) row.identityType = liveNamed types row.identityType := by
      rw [liveNamed_eq, liveNamed_eq]
      exact Table.find?_values_modify hcurrent (by simp [Ne.symm hold]) (by simp [Ne.symm hname])
    rw [hlivesame, harchived]
    exact h

theorem described_archive (htypes : TypesOk compile types) (hcurrent : types.get? id = some current)
    (hlive : current.deleted = false)
    (hleaves : row.identityType = current.name →
      ∀ old ∈ archivedNamed (archivedBy types id) current.name, patternAccepts compile old row.identity = true)
    (h : Described compile types row) : Described compile (archivedBy types id) row := by
  have hwrite : ∀ i, (archivedBy types id).get? i = if i = id then some { current with deleted := true } else types.get? i :=
    Table.get?_replace hcurrent
  unfold Described at h ⊢
  by_cases hblank : row.identityType = ""
  · rw [if_pos hblank] at h ⊢
    exact Table.forall_modify hcurrent h fun hdeleted => by cases hdeleted
  rw [if_neg hblank] at h ⊢
  by_cases hold : row.identityType = current.name
  · rw [hold, liveNamed_given_up htypes hcurrent hlive hwrite (.inl rfl)]
    exact hleaves hold
  · have hlivesame : liveNamed (archivedBy types id) row.identityType = liveNamed types row.identityType := by
      rw [liveNamed_eq, liveNamed_eq]
      exact Table.find?_values_modify hcurrent (by simp [Ne.symm hold]) (by simp)
    have harchived : archivedNamed (archivedBy types id) row.identityType = archivedNamed types row.identityType := by
      rw [archivedNamed_eq, archivedNamed_eq]
      exact Table.find?_values_modify hcurrent (by simp [hlive]) (by simp [Ne.symm hold])
    rw [hlivesame, harchived]
    exact h

/-! ## Saves -/

theorem canonicalType_of_mem : ∀ e ∈ identityTypeAliases, canonicalType (strip e.2) = strip e.2 := by decide +kernel

theorem canonicalType_canonical (supplied : String) :
    canonicalType (strip (canonicalType supplied)) = strip (canonicalType supplied) := by
  cases h : identityTypeAliases.lookup (lower (strip supplied)) with
  | none => simp [canonicalType, h]
  | some canonical =>
    have hcanonical : canonicalType supplied = canonical := by rw [canonicalType, h, Option.getD_some]
    rw [hcanonical]
    exact canonicalType_of_mem (lower (strip supplied), canonical) (Entries.mem_of_lookup h)

theorem suppliedIdentity_eq {touched : Bool} {p : AssetPayload} (hne : strip row.identity ≠ "")
    (hgiven : ∀ identity, p.identity.get? = some identity → identity = row.identity)
    (h : touched = true ∨ p.identity.get?.isSome = true) : suppliedIdentity touched row p = some row.identity := by
  unfold suppliedIdentity
  cases hp : p.identity.get? with
  | some identity =>
    rw [hgiven identity hp]
    simp [hne]
  | none =>
    rw [hp] at h
    obtain rfl := h.resolve_right (by simp)
    simp [hne]

/-- A name that the caller did not choose is the stored one. -/
theorem stored_of_untouched {isPartial : Bool} {old : Asset} {p : AssetPayload} {name : String}
    (hold : isPartial = true → AssetOk dir old) (hnew : isPartial = false → old = newAsset)
    (hname : name = (replaced p.identityType (some old.identityType)).getD "") (hne : name ≠ "")
    (h : isTouched (if isPartial then some old.identityType else none) p = false) :
    isPartial = true ∧ name = old.identityType := by
  cases isPartial with
  | false =>
    exfalso
    rw [hnew rfl] at hname
    cases hp : p.identityType with
    | value v =>
      rw [hp] at hname
      obtain rfl : name = v := hname
      have hblank : strip "" = "" := by decide
      simp [isTouched, hp, Field.get?, hblank, hne] at h
    | _ =>
      rw [hp] at hname
      exact hne hname
  | true =>
    refine ⟨rfl, ?_⟩
    cases hp : p.identityType with
    | absent => simpa [hp, replaced, Field.sent] using hname
    | value v =>
      rw [hp] at hname
      obtain rfl : name = v := hname
      have hstrip : strip old.identityType = old.identityType := by
        rcases (hold rfl).identityType with hblank | hreads
        · rw [hblank]
          decide
        · exact hreads.stripped
      simpa [isTouched, hp, Field.get?, hne, hstrip] using h
    | _ =>
      rw [hp] at hname
      exact absurd hname hne

/-- What is stored under an accepted save: no type, the live type of its name, or the stored type with an archived row. -/
theorem described_of_request {isPartial : Bool} {old applied stored : Asset} {body : AssetPayload}
    (hsound : Sound compile dir s) (hold : isPartial = true → AssetOk dir old ∧ Kept compile dir s.identityTypes old)
    (hnew : isPartial = false → old = newAsset)
    (hcareful : CarefulSave compile dir s old (assetTransform body).normalized)
    (h : Request compile dir s id isPartial old body applied stored) :
    (stored.identityType = "" ∧ firstApplicable s.identityTypes stored.transportTypeId = none) ∨
      (∃ i t, s.identityTypes.get? i = some t ∧ t.deleted = false ∧ t.name = stored.identityType ∧
        t.fits stored.transportTypeId = true ∧ patternAccepts compile t stored.identity = true) ∨
      (isPartial = true ∧ stored.identityType ≠ "" ∧ stored.identityType = old.identityType ∧
        liveNamed s.identityTypes stored.identityType = none ∧ ∀ t ∈ archivedNamed s.identityTypes stored.identityType, patternAccepts compile t stored.identity = true) := by
  have hstoredOk := assetOk_of_request hsound.types.ok (fun hupdate => (hold hupdate).1) hnew h
  obtain ⟨-, happlies, row, hrow, hstored⟩ := h
  obtain ⟨hrow_eq, ⟨d, hd, haccepts⟩, -⟩ := validateAssetRecord_eq_ok.1 hrow
  obtain ⟨⟨capacity, -, rfl⟩, -⟩ := flushAsset_eq_ok.1 hstored
  rw [CarefulSave, happlies] at hcareful
  generalize (assetTransform body).normalized = p at happlies hd haccepts hcareful
  simp only [applyAssetInput, bind_eq_ok, pure_eq_ok] at happlies
  obtain ⟨transportType, -, owner, -, operator, -, happlied⟩ := happlies
  have htype : applied.identityType = (replaced p.identityType (some old.identityType)).getD "" := by rw [← happlied]
  have hidentity : applied.identity = p.identity.get?.getD old.identity := by rw [← happlied]
  have hrowIdentity : row.identity = applied.identity := by
    rw [hrow_eq]
    split <;> rfl
  have hrowTransport : row.transportTypeId = applied.transportTypeId := by
    rw [hrow_eq]
    split <;> rfl
  -- The pattern is applied where the caller chose a type or submits an identity.
  have hchecked : isTouched (if isPartial then some old.identityType else none) p = true ∨ p.identity.get?.isSome = true →
      ∀ t ∈ d, patternAccepts compile t row.identity = true := by
    intro hwhen t ht
    refine haccepts t ht row.identity ?_
    have hne : strip row.identity ≠ "" := hstoredOk.identity.strip_ne
    rw [suppliedIdentity_eq hne (fun identity hgiven => ?_) hwhen]
    · rfl
    · rw [hrowIdentity, hidentity, hgiven, Option.getD_some]
  by_cases hblank : strip applied.identityType = ""
  · have hname : row.identityType = ((firstApplicable s.identityTypes applied.transportTypeId).map (·.name)).getD "" := by
      rw [hrow_eq, if_pos hblank, typeName, if_pos hblank]
    cases hfirst : firstApplicable s.identityTypes applied.transportTypeId with
    | none =>
      rw [hfirst] at hname
      exact .inl ⟨hname, by rw [hrowTransport]; exact hfirst⟩
    | some t =>
      rw [hfirst] at hname
      obtain ⟨i, hi, hlive, hfits⟩ := mem_of_firstApplicable hfirst
      refine .inr (.inl ⟨i, t, hi, hlive, hname.symm, by rw [hrowTransport]; exact hfits, ?_⟩)
      by_cases hgiven : p.identity.get?.isSome = true
      · refine hchecked (.inr hgiven) t ?_
        have hnamed : liveNamed s.identityTypes (typeName s.identityTypes applied) = some t := by
          rw [typeName, if_pos hblank, hfirst]
          exact liveNamed_of_get? hsound.types hi hlive
        rcases describingType_eq_ok.1 hd with ⟨t', ht', -, rfl⟩ | ⟨-, hnone, -⟩
        · rw [← ht', hnamed]
          rfl
        · rw [hnamed] at hnone
          cases hnone
      · rw [hrowIdentity]
        exact (hcareful.2 hblank t hfirst).2 (by simpa using hgiven)
  · rw [if_neg hblank] at hrow_eq
    subst hrow_eq
    have hreads := hstoredOk.identityType.resolve_left fun hempty => hblank (by rw [show row.identityType = "" from hempty]; decide)
    have hname : typeName s.identityTypes row = row.identityType := by
      rw [typeName, if_neg hblank]
      exact hreads.stripped
    rw [hname] at hd
    have hkept : isTouched (if isPartial then some old.identityType else none) p = false →
        isPartial = true ∧ row.identityType = old.identityType :=
      stored_of_untouched (fun hupdate => (hold hupdate).1) hnew htype hreads.nonblank
    have hunchecked : ∀ t ∈ d, patternAccepts compile t row.identity = true := by
      by_cases hwhen : isTouched (if isPartial then some old.identityType else none) p = true ∨ p.identity.get?.isSome = true
      · exact hchecked hwhen
      · -- Neither the type nor the identity was submitted: the stored row was described already.
        rw [not_or, Bool.not_eq_true] at hwhen
        obtain ⟨hupdate, hsame⟩ := hkept hwhen.1
        have hdescribed := (hold hupdate).2.described
        have hunchanged : row.identity = old.identity := by
          rw [hidentity, Option.not_isSome_iff_eq_none.1 hwhen.2, Option.getD_none]
        rw [Described, ← hsame, if_neg hreads.nonblank, ← hunchanged] at hdescribed
        rcases describingType_eq_ok.1 hd with ⟨t, hlive, -, rfl⟩ | ⟨-, hnone, rfl⟩
        · rw [hlive] at hdescribed
          rintro _ ⟨⟩
          exact hdescribed.2
        · rw [hnone] at hdescribed
          exact hdescribed
    rcases describingType_eq_ok.1 hd with ⟨t, hlive, hfits, rfl⟩ | ⟨huntouched, hnone, rfl⟩
    · obtain ⟨i, hi, hdeleted, hnamed⟩ := mem_of_liveNamed hlive
      exact .inr (.inl ⟨i, t, hi, hdeleted, hnamed, hfits, hunchecked t rfl⟩)
    · obtain ⟨hupdate, hsame⟩ := hkept huntouched
      exact .inr (.inr ⟨hupdate, hreads.nonblank, hsame, hnone, hunchecked⟩)

/-- A save in a store: which row it replaces, and what it stores. -/
structure Saved (compile : Compile) (dir : Directory) (s s' : Store) (id : ℕ) (isPartial : Bool) (old : Asset)
    (body : AssetPayload) (stored : Asset) : Prop where
  replaces : isPartial = true → s.assets.get? id = some old
  fresh : isPartial = false → old = newAsset
  request : ∃ applied, Request compile dir s id isPartial old body applied stored
  types : s'.identityTypes = s.identityTypes
  write : ∀ i, s'.assets.get? i = if i = id then some stored else s.assets.get? i

theorem saved_of_create {body : AssetPayload} (h : createAsset compile dir s body = .ok s') :
    ∃ stored, Saved compile dir s s' s.assets.nextId false newAsset body stored := by
  obtain ⟨applied, stored, hrequest, rfl⟩ := request_of_create h
  exact ⟨stored, fun h => (by cases h), fun _ => rfl, ⟨applied, hrequest⟩, rfl, Table.get?_insert s.assets stored⟩

theorem saved_of_update {body : AssetPayload} (h : updateAsset compile dir s id body = .ok s') :
    ∃ old stored, Saved compile dir s s' id true old body stored := by
  obtain ⟨old, applied, stored, hold, hrequest, rfl⟩ := request_of_update h
  exact ⟨old, stored, fun _ => hold, fun h => (by cases h), ⟨applied, hrequest⟩, rfl, Table.get?_replace hold⟩

section
variable {isPartial : Bool} {old stored : Asset} {body : AssetPayload}

theorem Saved.forall_rows {P : ℕ → Asset → Prop} (h : Saved compile dir s s' id isPartial old body stored)
    (hall : ∀ i row, s.assets.get? i = some row → P i row) (hstored : P id stored) :
    ∀ i row, s'.assets.get? i = some row → P i row := by
  intro i row hi
  rw [h.write] at hi
  split at hi
  next hid =>
    obtain rfl := Option.some.inj hi
    exact hid ▸ hstored
  next => exact hall i row hi

theorem sound_saved (hsound : Sound compile dir s) (h : Saved compile dir s s' id isPartial old body stored) :
    Sound compile dir s' := by
  obtain ⟨applied, hrequest⟩ := h.request
  have hok : AssetOk dir stored :=
    assetOk_of_request hsound.types.ok (fun hupdate => hsound.assets id old (h.replaces hupdate)) h.fresh hrequest
  obtain ⟨-, -, row, -, hstored⟩ := hrequest
  obtain ⟨⟨capacity, -, hsame⟩, hcodes, hidentities, -, -, -⟩ := flushAsset_eq_ok.1 hstored
  refine ⟨h.types ▸ hsound.types, h.forall_rows hsound.assets hok, ?_, ?_⟩
  · refine Table.uniqueBy_write h.write hsound.codes (Table.free_of_forall fun e he => (hcodes e he).imp_right ?_)
    rintro hne _ ⟨⟩ heq
    exact hne ((Option.some.inj heq).trans (by rw [hsame]))
  · refine Table.uniqueBy_write h.write hsound.identities (Table.free_of_forall fun e he => (hidentities e he).imp_right ?_)
    rintro hne _ ⟨⟩ heq
    exact hne ((Option.some.inj heq).trans (by rw [hsame]))

theorem kept_saved (hsound : Sound compile dir s) (hkept : AllKept compile dir s)
    (hcareful : CarefulSave compile dir s old (assetTransform body).normalized)
    (h : Saved compile dir s s' id isPartial old body stored) : Kept compile dir s.identityTypes stored := by
  obtain ⟨applied, hrequest⟩ := h.request
  have holdKept : isPartial = true → AssetOk dir old ∧ Kept compile dir s.identityTypes old := fun hupdate =>
    ⟨hsound.assets id old (h.replaces hupdate), hkept id old (h.replaces hupdate)⟩
  have hdescribed := described_of_request hsound holdKept h.fresh hcareful hrequest
  obtain ⟨-, happlies, row, hrow, hstored⟩ := hrequest
  obtain ⟨hrow_eq, -, -⟩ := validateAssetRecord_eq_ok.1 hrow
  obtain ⟨⟨capacity, -, rfl⟩, -⟩ := flushAsset_eq_ok.1 hstored
  rw [CarefulSave, happlies] at hcareful
  obtain ⟨hleads, hdefault⟩ := hcareful
  refine ⟨?_, ?_, ?_⟩
  · -- The name is canonical: it was submitted, it is a type's, or it was stored before.
    have hblankName : canonicalType "" = "" := by decide +kernel
    show canonicalType row.identityType = row.identityType
    by_cases hblank : strip applied.identityType = ""
    · rw [hrow_eq, if_pos hblank, typeName, if_pos hblank]
      cases hfirst : firstApplicable s.identityTypes applied.transportTypeId with
      | none => exact hblankName
      | some t => exact (hdefault hblank t hfirst).1
    · rw [hrow_eq, if_neg hblank]
      simp only [applyAssetInput, bind_eq_ok, pure_eq_ok] at happlies
      obtain ⟨transportType, -, owner, -, operator, -, rfl⟩ := happlies
      have holdName : canonicalType old.identityType = old.identityType := by
        cases isPartial with
        | true => exact (holdKept rfl).2.canonical
        | false =>
          rw [h.fresh rfl]
          exact hblankName
      have hsent : ∀ v, (assetTransform body).normalized.identityType.get? = some v → canonicalType v = v := by
        intro v hv
        cases hbody : body.identityType with
        | value supplied =>
          simp only [AssetPayload.normalized, assetTransform, hbody, mapText, Field.text, strip_strip] at hv
          split at hv
          · cases hv
          · exact Option.some.inj hv ▸ canonicalType_canonical supplied
        | _ =>
          simp only [AssetPayload.normalized, assetTransform, hbody, mapText] at hv
          cases hv
      simp only [replaced]
      split
      · cases hv : (assetTransform body).normalized.identityType.get? with
        | none => exact hblankName
        | some v => exact hsent v hv
      · exact holdName
  · have hsame : row.transportTypeId = applied.transportTypeId ∧ row.ownerPartyId = applied.ownerPartyId ∧
        row.operatorPartyId = applied.operatorPartyId := by
      rw [hrow_eq]
      split <;> exact ⟨rfl, rfl, rfl⟩
    unfold LeadsBack at hleads ⊢
    rwa [hsame.1, hsame.2.1, hsame.2.2]
  · unfold Described
    rcases hdescribed with ⟨hblank, hnone⟩ | ⟨i, t, hi, hlive, hname, hfits, haccepts⟩ | ⟨-, hne, -, hnone, haccepts⟩
    · rw [if_pos hblank]
      intro i t hi hlive hfits
      exact absurd hfits (List.find?_eq_none.1 hnone t (mem_liveTypes.2 ⟨i, hi, hlive⟩))
    · have hne := (hsound.types.ok i t hi).name.nonblank
      rw [if_neg (hname ▸ hne), ← hname, liveNamed_of_get? hsound.types hi hlive]
      exact ⟨hfits, haccepts⟩
    · rw [if_neg hne, hnone]
      exact haccepts

end

/-! ## Runs -/

theorem sound_perform (hsound : Sound compile dir s) (a : Action) (h : a.perform compile dir s = .ok s') :
    Sound compile dir s' := by
  cases a with
  | createAsset body =>
    obtain ⟨stored, hsaved⟩ := saved_of_create h
    exact sound_saved hsound hsaved
  | updateAsset id body =>
    obtain ⟨old, stored, hsaved⟩ := saved_of_update h
    exact sound_saved hsound hsaved
  | createType body =>
    obtain ⟨t, -, -, hok, hfree, rfl⟩ := written_of_createType h
    exact ⟨typesOk_insert hsound.types hok hfree, hsound.assets, hsound.codes, hsound.identities⟩
  | updateType id body =>
    obtain ⟨current, t, hcurrent, -, -, -, hok, hfree, rfl⟩ := written_of_updateType hsound h
    exact ⟨typesOk_update hsound.types hcurrent hok hfree, hsound.assets, hsound.codes, hsound.identities⟩
  | archiveType id =>
    rcases written_of_archiveType h with rfl | ⟨current, hcurrent, -, rfl⟩
    · exact hsound
    · exact ⟨typesOk_archive hsound.types hcurrent, hsound.assets, hsound.codes, hsound.identities⟩

theorem allKept_perform (hsound : Sound compile dir s) (hkept : AllKept compile dir s) (a : Action)
    (hcareful : Careful compile dir s a) (h : a.perform compile dir s = .ok s') : AllKept compile dir s' := by
  have hsound' := sound_perform hsound a h
  cases a with
  | createAsset body =>
    obtain ⟨stored, hsaved⟩ := saved_of_create h
    rw [AllKept, hsaved.types]
    exact hsaved.forall_rows hkept (kept_saved hsound hkept hcareful hsaved)
  | updateAsset id body =>
    obtain ⟨old, stored, hsaved⟩ := saved_of_update h
    rw [AllKept, hsaved.types]
    exact hsaved.forall_rows hkept (kept_saved hsound hkept (hcareful old (hsaved.replaces rfl)) hsaved)
  | createType body =>
    have hok := hcareful (isOk_eq_true.2 ⟨s', h⟩)
    obtain ⟨t, happlies, hlive, -, -, rfl⟩ := written_of_createType h
    rw [happlies] at hok
    intro i row hi
    have hrow := hkept i row hi
    exact ⟨hrow.canonical, hrow.leads,
      described_insert hsound'.types hlive (hok (i, row) (Table.get?_eq_some.1 hi)) hrow.described⟩
  | updateType id body =>
    have hok := hcareful (isOk_eq_true.2 ⟨s', h⟩)
    obtain ⟨current, t, hcurrent, hlive, happlies, hlive', -, -, rfl⟩ := written_of_updateType hsound h
    have hok := hok current hcurrent
    rw [happlies] at hok
    intro i row hi
    have hrow := hkept i row hi
    have hmem := Table.get?_eq_some.1 hi
    exact ⟨hrow.canonical, hrow.leads, described_update hsound.types hsound'.types hcurrent hlive hlive' (hok.1 (i, row) hmem)
      (fun hne => hok.2 hne (i, row) hmem) hrow.described⟩
  | archiveType id =>
    have hok := hcareful (isOk_eq_true.2 ⟨s', h⟩)
    rcases written_of_archiveType h with rfl | ⟨current, hcurrent, hlive, rfl⟩
    · exact hkept
    · intro i row hi
      have hrow := hkept i row hi
      exact ⟨hrow.canonical, hrow.leads, described_archive hsound.types hcurrent hlive
        (hok current hcurrent (i, row) (Table.get?_eq_some.1 hi)) hrow.described⟩

/-- The pattern of the type matches. -/
def IdentityType.Matches (compile : Compile) (t : IdentityType) (identity : String) : Prop :=
  ∀ pattern ∈ t.validationPattern, ∃ fullmatch, compile (strip pattern) = .ok fullmatch ∧ fullmatch (strip identity) = true

/-- An accepted request moves an asset to another type only if that is live, fits and matches. -/
def MovesWell (compile : Compile) (dir : Directory) (s : Store) (a : Action) : Prop :=
  ∀ s', a.perform compile dir s = .ok s' → ∀ id row, s'.assets.get? id = some row → row.identityType ≠ "" →
    (s.assets.get? id).map (·.identityType) ≠ some row.identityType →
      ∃ i t, s.identityTypes.get? i = some t ∧ t.deleted = false ∧ t.name = row.identityType ∧
        t.fits row.transportTypeId = true ∧ t.Matches compile row.identity

theorem matches_of_accepts (hok : TypeOk compile t) {identity : String} (h : patternAccepts compile t identity = true) :
    t.Matches compile identity := by
  intro pattern hpattern
  obtain ⟨hne, fullmatch, hcompile⟩ := hok.pattern pattern hpattern
  refine ⟨fullmatch, hcompile, ?_⟩
  rw [patternAccepts, hpattern] at h
  simpa [Option.filter, hne, hcompile] using h

theorem movesWell_saved {isPartial : Bool} {old stored : Asset} {body : AssetPayload} (hsound : Sound compile dir s)
    (hkept : AllKept compile dir s) (hcareful : CarefulSave compile dir s old (assetTransform body).normalized)
    (h : Saved compile dir s s' id isPartial old body stored) :
    ∀ i row, s'.assets.get? i = some row → row.identityType ≠ "" →
      (s.assets.get? i).map (·.identityType) ≠ some row.identityType →
        ∃ j t, s.identityTypes.get? j = some t ∧ t.deleted = false ∧ t.name = row.identityType ∧
          t.fits row.transportTypeId = true ∧ t.Matches compile row.identity := by
  refine h.forall_rows (fun i row hi _ hmoved => absurd (by rw [hi]; rfl) hmoved) fun hne hmoved => ?_
  obtain ⟨applied, hrequest⟩ := h.request
  rcases described_of_request hsound
    (fun hupdate => ⟨hsound.assets id old (h.replaces hupdate), hkept id old (h.replaces hupdate)⟩) h.fresh hcareful hrequest with
    ⟨hblank, -⟩ | ⟨j, t, hj, hlive, hname, hfits, haccepts⟩ | ⟨hupdate, -, hsame, -⟩
  · exact absurd hblank hne
  · exact ⟨j, t, hj, hlive, hname, hfits, matches_of_accepts (hsound.types.ok j t hj) haccepts⟩
  · exact absurd (by rw [h.replaces hupdate, hsame]; rfl) hmoved

theorem movesWell_careful (hsound : Sound compile dir s) (hkept : AllKept compile dir s) (a : Action)
    (hcareful : Careful compile dir s a) : MovesWell compile dir s a := by
  intro s' h
  have hunmoved : s'.assets = s.assets → ∀ i row, s'.assets.get? i = some row → row.identityType ≠ "" →
      (s.assets.get? i).map (·.identityType) ≠ some row.identityType → False := by
    intro hsame i row hi _ hmoved
    rw [← hsame, hi] at hmoved
    exact hmoved rfl
  cases a with
  | createAsset body =>
    obtain ⟨stored, hsaved⟩ := saved_of_create h
    exact movesWell_saved hsound hkept hcareful hsaved
  | updateAsset id body =>
    obtain ⟨old, stored, hsaved⟩ := saved_of_update h
    exact movesWell_saved hsound hkept (hcareful old (hsaved.replaces rfl)) hsaved
  | createType body =>
    obtain ⟨t, -, -, -, -, rfl⟩ := written_of_createType h
    exact fun i row hi hne hmoved => (hunmoved rfl i row hi hne hmoved).elim
  | updateType id body =>
    obtain ⟨current, t, -, -, -, -, -, -, rfl⟩ := written_of_updateType hsound h
    exact fun i row hi hne hmoved => (hunmoved rfl i row hi hne hmoved).elim
  | archiveType id =>
    rcases written_of_archiveType h with rfl | ⟨current, -, -, rfl⟩
    · exact fun i row hi hne hmoved => (hunmoved rfl i row hi hne hmoved).elim
    · exact fun i row hi hne hmoved => (hunmoved rfl i row hi hne hmoved).elim

theorem sound_step (hsound : Sound compile dir s) (a : Action) : Sound compile dir (step compile dir s a) := by
  unfold step
  cases h : a.perform compile dir s with
  | ok s' => exact sound_perform hsound a h
  | error e => exact hsound

theorem allKept_step (hsound : Sound compile dir s) (hkept : AllKept compile dir s) (a : Action)
    (hcareful : Careful compile dir s a) : AllKept compile dir (step compile dir s a) := by
  unfold step
  cases h : a.perform compile dir s with
  | ok s' => exact allKept_perform hsound hkept a hcareful h
  | error e => exact hkept

/-- An asset is changed by its own updates only. -/
theorem get?_step {a : Action} (hrow : s.assets.get? id = some row) (hother : ∀ body, a ≠ .updateAsset id body)
    (hsound : Sound compile dir s) : (step compile dir s a).assets.get? id = some row := by
  unfold step
  cases h : a.perform compile dir s with
  | error e => exact hrow
  | ok s' =>
    show s'.assets.get? id = some row
    cases a with
    | createAsset body =>
      obtain ⟨stored, hsaved⟩ := saved_of_create h
      rw [hsaved.write, if_neg (Table.lt_nextId hrow).ne]
      exact hrow
    | updateAsset i body =>
      obtain ⟨old, stored, hsaved⟩ := saved_of_update h
      rw [hsaved.write, if_neg fun hid => hother body (by rw [hid])]
      exact hrow
    | createType body =>
      obtain ⟨t, -, -, -, -, rfl⟩ := written_of_createType h
      exact hrow
    | updateType i body =>
      obtain ⟨current, t, -, -, -, -, -, -, rfl⟩ := written_of_updateType hsound h
      exact hrow
    | archiveType i =>
      rcases written_of_archiveType h with rfl | ⟨current, -, -, rfl⟩
      · exact hrow
      · exact hrow

theorem sound_run (as : List Action) : Sound compile dir (run (step compile dir) .empty as) :=
  run_invariant (Sound compile dir) (fun _ a h => sound_step h a) as sound_empty

theorem kept_run {as : List Action} (hsound : Sound compile dir s) (hkept : AllKept compile dir s)
    (h : Meets (step compile dir) (Careful compile dir) s as) :
    Sound compile dir (run (step compile dir) s as) ∧ AllKept compile dir (run (step compile dir) s as) :=
  run_invariant_of_meets (fun s => Sound compile dir s ∧ AllKept compile dir s)
    (fun _ a hinv hcareful => ⟨sound_step hinv.1 a, allKept_step hinv.1 hinv.2 a hcareful⟩) ⟨hsound, hkept⟩ h

theorem get?_run {as : List Action} (hsound : Sound compile dir s) (hrow : s.assets.get? id = some row)
    (hother : ∀ a ∈ as, ∀ body, a ≠ .updateAsset id body) : (run (step compile dir) s as).assets.get? id = some row := by
  induction as generalizing s with
  | nil => exact hrow
  | cons a as ih =>
    exact ih (sound_step hsound a) (get?_step hrow (hother a List.mem_cons_self) hsound)
      fun b hb => hother b (List.mem_cons_of_mem _ hb)

theorem resubmit_ok (hsound : Sound compile dir s) (hkept : AllKept compile dir s) (hrow : s.assets.get? id = some row) :
    ∃ s', updateAsset compile dir s id (row.serialize dir) = .ok s' := by
  refine updateAsset_serialize hsound.types hrow (hsound.assets id row hrow) (hkept id row hrow) (fun e he => ?_) fun e he => ?_
  · exact (hsound.codes.forall_rows hrow e he).imp_right fun hne heq => hne _ rfl (congrArg some heq)
  · exact (hsound.identities.forall_rows hrow e he).imp_right fun hne heq => hne _ rfl (congrArg some heq)

/-- **Every stored asset has its capacity and unit together.** In a run of careful requests a save moves an asset only to a
live type that fits and matches, and an asset that was read can be submitted again whatever happens before, its own updates
apart. -/
theorem assets_of_careful (compile : Compile) (dir : Directory) (as : List Action) :
    (∀ id row, (run (step compile dir) .empty as).assets.get? id = some row →
      row.capacityValue.isSome = row.capacityUnit.isSome) ∧
    (Meets (step compile dir) (Careful compile dir) .empty as →
      (∀ a, Careful compile dir (run (step compile dir) .empty as) a →
        MovesWell compile dir (run (step compile dir) .empty as) a) ∧
      ∀ id row, (run (step compile dir) .empty as).assets.get? id = some row → ∀ bs,
        Meets (step compile dir) (Careful compile dir) (run (step compile dir) .empty as) bs →
        (∀ b ∈ bs, ∀ body, b ≠ .updateAsset id body) →
          ∃ s', updateAsset compile dir (run (step compile dir) (run (step compile dir) .empty as) bs) id (row.serialize dir) =
            .ok s') := by
  refine ⟨fun id row hrow => ((sound_run as).assets id row hrow).paired, fun hmeets => ?_⟩
  obtain ⟨hsound, hkept⟩ := kept_run sound_empty allKept_empty hmeets
  refine ⟨fun a hcareful => movesWell_careful hsound hkept a hcareful, fun id row hrow bs hbs hother => ?_⟩
  obtain ⟨hsound', hkept'⟩ := kept_run hsound hkept hbs
  exact resubmit_ok hsound' hkept' (get?_run hsound hrow hother)

end

/-! ## Examples -/

section
variable (compile : Compile) (dir : Directory) (s : Store)

instance TakesWell.decidable (t : IdentityType) : Decidable (TakesWell compile s t) :=
  inferInstanceAs (Decidable (∀ e ∈ s.assets.rows, _ ∧ _))

instance LeavesWell.decidable (types : Table IdentityType) (name : String) : Decidable (LeavesWell compile s types name) :=
  inferInstanceAs (Decidable (∀ e ∈ s.assets.rows, e.2.identityType = name → ∀ t ∈ archivedNamed types name, _ = true))

instance LeadsBack.decidable (row : Asset) : Decidable (LeadsBack dir row) :=
  inferInstanceAs (Decidable (_ ∧ _ ∧ _))

instance CarefulSave.decidable (current : Asset) (p : AssetPayload) : Decidable (CarefulSave compile dir s current p) :=
  inferInstanceAs (Decidable (WhenOk (applyAssetInput dir current p) fun row => LeadsBack dir row ∧ _))

instance Careful.decidable : ∀ a, Decidable (Careful compile dir s a)
  | .createAsset body => inferInstanceAs (Decidable (CarefulSave compile dir s newAsset (assetTransform body).normalized))
  | .updateAsset id body => inferInstanceAs (Decidable (∀ current ∈ s.assets.get? id,
      CarefulSave compile dir s current (assetTransform body).normalized))
  | .createType body => inferInstanceAs (Decidable ((createType compile dir s body).isOk = true → WhenOk _ _))
  | .updateType id body => inferInstanceAs (Decidable ((updateType compile dir s id body).isOk = true →
      ∀ current ∈ s.identityTypes.get? id, WhenOk _ _))
  | .archiveType id => inferInstanceAs (Decidable ((archiveType s id).isOk = true →
      ∀ current ∈ s.identityTypes.get? id, LeavesWell compile s (archivedBy s.identityTypes id) current.name))

end

/-- Trucks and vessels. -/
def twoTransports : Directory :=
  ⟨(Table.empty.insert ⟨"TRUCK", "Truck", false⟩).insert ⟨"VESSEL", "Vessel", false⟩, .empty⟩

/-- Seven digits. -/
def digitsPattern : String := "^\\d{7}$"

def compileDigits : Compile := fun pattern =>
  if pattern = digitsPattern then .ok fun text => text.length == 7 && text.toList.all Char.isDigit
  else .error "not read"

def truck (identity identityType : String) : AssetPayload where
  assetCode := .value "TRK-1"
  transportType := .value (.text "Truck")
  identity := .value identity
  identityType := .value identityType

/-- A truck under the type `Other`, beside a type with a pattern and one of vessels. -/
def withTruck : List Action :=
  [.createType { name := .value "IMO Number", validationPattern := .value digitsPattern },
    .createType { name := .value "Other" },
    .createType { name := .value "Vessel Registration", transportType := .value (.text "Vessel") },
    .createAsset (truck "FREEFORM-1" "Other")]

def storeAfter (as : List Action) : Store := run (step compileDigits twoTransports) .empty as

/-- The type `Other` is renamed. -/
def renamed : List Action := [.updateType 2 { name := .value "Misc" }]

theorem assets_of_careful_truck :
    MovesWell compileDigits twoTransports (storeAfter withTruck)
        (.updateAsset 1 { identityType := .value "IMO Number", identity := .value "9991234" }) ∧
      ∃ row, (storeAfter withTruck).assets.get? 1 = some row ∧
        ∃ s', updateAsset compileDigits twoTransports (run (step compileDigits twoTransports) (storeAfter withTruck) renamed) 1
          (row.serialize twoTransports) = .ok s' := by
  obtain ⟨hmoves, hresaves⟩ := (assets_of_careful compileDigits twoTransports withTruck).2 (by decide +kernel)
  obtain ⟨row, hrow⟩ := Option.isSome_iff_exists.1 (by decide +kernel : ((storeAfter withTruck).assets.get? 1).isSome = true)
  exact ⟨hmoves _ (by decide +kernel), row, hrow, hresaves 1 row hrow renamed (by decide +kernel) (by simp [renamed])⟩

/-- A blank type gives the truck the first type without a look at its pattern. After two renames the truck is refused as it
was read: the type of vessels bears the name of its own. -/
theorem blank_unchecked_name_reused :
    ¬MovesWell compileDigits twoTransports (storeAfter withTruck) (.updateAsset 1 { identityType := .blank }) ∧
      ((storeAfter withTruck).assets.get? 1).map (fun row => (updateAsset compileDigits twoTransports
        (storeAfter (withTruck ++ renamed ++ [.updateType 3 { name := .value "Other" }])) 1 (row.serialize twoTransports)).isOk) =
          some false := by
  refine ⟨fun h => ?_, by decide +kernel⟩
  obtain ⟨s', hs', hrow⟩ := okAnd_eq_true.1 (by decide +kernel :
    okAnd ((Action.updateAsset 1 { identityType := .blank }).perform compileDigits twoTransports (storeAfter withTruck))
      (fun s' => (s'.assets.get? 1).map (fun row => (row.identityType, row.identity)) = some ("IMO Number", "FREEFORM-1")) = true)
  obtain ⟨row, hget, hrow⟩ := Option.map_eq_some_iff.1 hrow
  obtain ⟨htype, hidentity⟩ := Prod.mk.inj hrow
  have hother : ((storeAfter withTruck).assets.get? 1).map (·.identityType) = some "Other" := by decide +kernel
  obtain ⟨i, t, ht, -, hname, -, hmatches⟩ := h s' hs' 1 row hget (by rw [htype]; decide) (by rw [hother, htype]; decide)
  have hpattern : ∀ e ∈ (storeAfter withTruck).identityTypes.rows,
      e.2.name = "IMO Number" → e.2.validationPattern = some digitsPattern := by decide +kernel
  obtain ⟨fullmatch, hcompile, hfull⟩ := hmatches digitsPattern (hpattern (i, t) (Table.get?_eq_some.1 ht) (hname.trans htype))
  have hstrip : strip digitsPattern = digitsPattern := by decide +kernel
  rw [hstrip, compileDigits, if_pos rfl] at hcompile
  cases hcompile
  rw [hidentity] at hfull
  revert hfull
  decide +kernel

end LcsSystem.Assets
