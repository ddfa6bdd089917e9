import LcsSystem.Lib.Context
import LcsSystem.Lib.Indexes
import LcsSystem.MasterData.AssetSaves

/-!
# Submitting an asset again

Identity types are referenced by name. A stored asset can be submitted again as it was read while the row that its name
finds describes it (`Kept`, `updateAsset_serialize`): the live row of the name, or else the first archived one.
-/

namespace LcsSystem.Assets
open Relational Checks DecimalArith

/-! ## The vocabulary -/

/-- The key of the partial unique index. -/
def IdentityType.liveName (t : IdentityType) : Option String := if t.deleted then none else some t.name

structure TypesOk (compile : Compile) (types : Table IdentityType) : Prop where
  ok : ∀ id t, types.get? id = some t → TypeOk compile t
  unique : types.UniqueBy IdentityType.liveName

section
variable {compile : Compile} {dir : Directory} {types : Table IdentityType} {t : IdentityType} {name : String} {id : ℕ}
  {row : Asset}

theorem liveNamed_eq (types : Table IdentityType) (name : String) :
    liveNamed types name = types.values.find? fun t => !t.deleted && t.name == name := by
  rw [liveNamed, liveTypes, List.find?_filter]
  exact congrArg (List.find? · _) (funext fun t => by rw [Bool.eq_iff_iff]; simp)

theorem archivedNamed_eq (types : Table IdentityType) (name : String) :
    archivedNamed types name = types.values.find? fun t => t.deleted && t.name == name := by
  rw [archivedNamed, archivedTypes, List.find?_filter]
  exact congrArg (List.find? · _) (funext fun t => by rw [Bool.eq_iff_iff]; simp)

theorem mem_of_liveNamed (h : liveNamed types name = some t) :
    ∃ id, types.get? id = some t ∧ t.deleted = false ∧ t.name = name := by
  obtain ⟨id, hid, hlive⟩ := mem_liveTypes.1 (List.mem_of_find?_eq_some h)
  exact ⟨id, hid, hlive, by simpa using List.find?_some h⟩

theorem liveNamed_eq_none : liveNamed types name = none ↔
    ∀ id t, types.get? id = some t → t.deleted = false → t.name ≠ name := by
  rw [liveNamed, List.find?_eq_none]
  constructor
  · intro h id t hid hlive
    simpa using h t (mem_liveTypes.2 ⟨id, hid, hlive⟩)
  · intro h t ht
    obtain ⟨id, hid, hlive⟩ := mem_liveTypes.1 ht
    simpa using h id t hid hlive

theorem liveNamed_of_get? (htypes : TypesOk compile types) (hid : types.get? id = some t) (hlive : t.deleted = false) :
    liveNamed types t.name = some t := by
  cases hnamed : liveNamed types t.name with
  | none => exact absurd rfl (liveNamed_eq_none.1 hnamed id t hid hlive)
  | some t' =>
    obtain ⟨id', hid', hlive', hname⟩ := mem_of_liveNamed hnamed
    have hkey : ∀ {t : IdentityType}, t.deleted = false → t.liveName = some t.name := fun h => by simp [IdentityType.liveName, h]
    obtain rfl := htypes.unique id' id t' t t.name hid' hid (hname ▸ hkey hlive') (hkey hlive)
    rw [hid] at hid'
    exact hid'.symm

theorem mem_of_firstApplicable {transportTypeId : ℕ} (h : firstApplicable types transportTypeId = some t) :
    ∃ id, types.get? id = some t ∧ t.deleted = false ∧ t.fits transportTypeId = true := by
  obtain ⟨id, hid, hlive⟩ := mem_liveTypes.1 (List.mem_of_find?_eq_some h)
  exact ⟨id, hid, hlive, @List.find?_some _ (fun t : IdentityType => t.fits transportTypeId) _ _ h⟩

/-! ## Assets that can be submitted again -/

/-- The row that the name finds, if any, describes the asset; without a name, every type that may be given to it. -/
def Described (compile : Compile) (types : Table IdentityType) (row : Asset) : Prop :=
  if row.identityType = "" then
    ∀ id t, types.get? id = some t → t.deleted = false → t.fits row.transportTypeId = true →
      patternAccepts compile t row.identity = true
  else
    match liveNamed types row.identityType with
    | some t => t.fits row.transportTypeId = true ∧ patternAccepts compile t row.identity = true
    | none => ∀ t ∈ archivedNamed types row.identityType, patternAccepts compile t row.identity = true

/-- The references are found again under the names that are read. -/
def LeadsBack (dir : Directory) (row : Asset) : Prop :=
  let found (resolve : Reference → Option ℕ) (name : String) := (normalReference (.value (.text name))).get?.bind resolve
  (∀ t ∈ dir.transportTypes.get? row.transportTypeId, found dir.transportType t.name = some row.transportTypeId) ∧
    (∀ owner ∈ row.ownerPartyId, ∀ party ∈ dir.parties.get? owner, found dir.party party.legalName = some owner) ∧
    ∀ operator ∈ row.operatorPartyId, ∀ party ∈ dir.parties.get? operator, found dir.party party.legalName = some operator

structure Kept (compile : Compile) (dir : Directory) (types : Table IdentityType) (row : Asset) : Prop where
  canonical : canonicalType row.identityType = row.identityType
  leads : LeadsBack dir row
  described : Described compile types row

/-! ## Submitting an asset again -/

theorem text_asField {spec : TextSpec} {column : Option String} (h : ∀ s ∈ column, Reads spec s) :
    (mapText strip (asField column)).text = asField column ∧ spec.check (mapText strip (asField column)) = [] := by
  cases column with
  | none => exact ⟨rfl, rfl⟩
  | some s =>
    have hreads := h s rfl
    have hsame : mapText strip (asField (some s)) = .value s := congrArg Field.value hreads.stripped
    rw [hsame]
    exact ⟨hreads.text, hreads.accepted⟩

theorem text_value {spec : TextSpec} {s : String} (h : Reads spec s) :
    (mapText strip (.value s)).text = .value s ∧ spec.check (mapText strip (.value s)) = [] := by
  have hcolumn : ∀ s' ∈ some s, Reads spec s' := by
    rintro _ ⟨⟩
    exact h
  have hfield := text_asField hcolumn
  rwa [asField, Option.map_some, Option.getD_some] at hfield

@[simp] theorem replaced_asField {α : Type} (column current : Option α) : replaced (asField column) current = column := by
  cases column <;> rfl

theorem applyReference_asField {key label : String} {resolve : Reference → Option ℕ} {current : Option ℕ}
    {name : Option String} (column : Option ℕ) (hname : name.isSome = column.isSome)
    (h : ∀ s ∈ name, (normalReference (.value (.text s))).get?.bind resolve = column) :
    applyReference key label resolve current (normalReference (asField (name.map .text))) = .ok column := by
  cases name with
  | none =>
    cases column with
    | none => rfl
    | some id => cases hname
  | some s =>
    cases column with
    | none => cases hname
    | some id =>
      obtain ⟨r, hr, hresolve⟩ := Option.bind_eq_some_iff.1 (h s rfl)
      have hvalue : normalReference (asField (some (Reference.text s))) = .value r := by
        revert hr
        simp only [asField, Option.map_some, Option.getD_some, normalReference]
        split
        · exact fun hr => by cases hr
        · exact fun hr => congrArg Field.value (Option.some.inj hr)
      simp only [Option.map_some, hvalue, applyReference, hresolve, require]
      rfl

theorem capacityValue_accepted {column : Option ℚ}
    (h : ∀ q ∈ column, 0 ≤ q ∧ ∃ stored : Numeric 12 3, stored.val = q) : capacityValueSpec.check (asField column) = [] := by
  cases column with
  | none => rfl
  | some q =>
    obtain ⟨hnonneg, stored, rfl⟩ := h q rfl
    refine DecimalSpec.check_value_eq_nil.2 ⟨fun b hb => ?_, fun b hb => (by cases hb), fun p hp => ?_⟩
    · cases hb
      exact hnonneg
    · cases hp
      exact usesAtMost_val stored (by decide)

theorem leads_isSome {records : Table PartyName} {column : Option ℕ} (h : ∀ id ∈ column, (records.get? id).isSome = true) :
    ((column.bind records.get?).map (·.legalName)).isSome = column.isSome := by
  cases column with
  | none => rfl
  | some id => simpa using h id rfl

/-- What the schema makes of an asset that is submitted as it was read. -/
theorem normalized_serialize (hok : AssetOk dir row) (hcanonical : canonicalType row.identityType = row.identityType) :
    (assetTransform (row.serialize dir)).normalized = { row.serialize dir with
      identityType := if row.identityType = "" then .blank else .value row.identityType
      transportType := normalReference (row.serialize dir).transportType
      ownerParty := normalReference (row.serialize dir).ownerParty
      operatorParty := normalReference (row.serialize dir).operatorParty } := by
  have htype : (mapText strip (mapText canonicalType (.value row.identityType))).text =
      if row.identityType = "" then .blank else .value row.identityType := by
    rw [mapText, mapText, hcanonical]
    rcases hok.identityType with hblank | hreads
    · rw [hblank]
      rfl
    · rw [if_neg hreads.nonblank, Field.text, strip_strip, hreads.stripped, if_neg hreads.nonblank]
  have hstatus : (Field.value row.status).text = .value row.status := by
    rw [Field.text, hok.status.1, if_neg hok.status.2.1]
  simp only [AssetPayload.normalized, assetTransform, Asset.serialize, (text_value hok.assetCode).1, (text_asField hok.assetName).1,
    (text_value hok.identity).1, htype, (text_asField hok.capacityUnit).1, (text_asField hok.description).1, hstatus]

theorem given_of_leads {resolve : Reference → Option ℕ} {f : Field Reference} {id : ℕ}
    (h : (normalReference f).get?.bind resolve = some id) : (normalReference f).given = true := by
  cases hf : normalReference f with
  | value r => rfl
  | _ =>
    rw [hf] at h
    cases h

theorem requiredItems_given {α : Type} {isPartial : Bool} {key : String} {items : Field α → List FieldErrorItem} {f : Field α}
    (hgiven : f.given = true) (h : items f = []) : requiredItems isPartial key items f = [] := by
  unfold requiredItems checkRequired
  rw [if_pos hgiven]
  split
  · rfl
  · exact h

theorem reference_accepted {key : String} (name : Option String) :
    Reference.check key none (normalReference (asField (name.map .text))) = [] := by
  cases name with
  | none => rfl
  | some s =>
    simp only [asField, Option.map_some, Option.getD_some, normalReference]
    split <;> rfl

theorem items_serialize (hok : AssetOk dir row) (hkept : Kept compile dir types row) :
    (assetTransform (row.serialize dir)).items true = [] := by
  obtain ⟨transportType, htransport⟩ := Option.isSome_iff_exists.1 hok.transportType
  have hlead := hkept.leads.1 transportType htransport
  have htype : identityTypeSpec.check (mapText strip (mapText canonicalType (.value row.identityType))) = [] := by
    rw [mapText, mapText, hkept.canonical]
    rcases hok.identityType with hblank | hreads
    · rw [hblank]
      rfl
    · rw [hreads.stripped]
      exact hreads.accepted
  have hcode : requiredItems true "assetCode" assetCodeSpec.check (mapText strip (.value row.assetCode)).text = [] := by
    rw [(text_value hok.assetCode).1]
    exact requiredItems_given rfl hok.assetCode.accepted
  have hidentity : requiredItems true "identity" identitySpec.check (mapText strip (.value row.identity)).text = [] := by
    rw [(text_value hok.identity).1]
    exact requiredItems_given rfl hok.identity.accepted
  simp only [AssetPayload.items, assetTransform, Asset.serialize, hcode, hidentity, htype, hok.status.2.2,
    capacityValue_accepted hok.capacityValue, (text_asField hok.assetName).2, (text_asField hok.capacityUnit).2,
    (text_asField hok.description).2, List.append_nil, List.nil_append, reference_accepted]
  refine requiredItems_given ?_ (reference_accepted _)
  rw [htransport]
  exact given_of_leads hlead

theorem applyAssetInput_serialize (hok : AssetOk dir row) (hkept : Kept compile dir types row) :
    applyAssetInput dir row (assetTransform (row.serialize dir)).normalized = .ok row := by
  obtain ⟨transportType, htransport⟩ := Option.isSome_iff_exists.1 hok.transportType
  obtain ⟨hlead, howner, hoperator⟩ := hkept.leads
  have hparty : ∀ {column : Option ℕ}, (∀ id ∈ column, ∀ party ∈ dir.parties.get? id,
      (normalReference (.value (.text party.legalName))).get?.bind dir.party = some id) →
      ∀ s ∈ (column.bind dir.parties.get?).map (·.legalName), (normalReference (.value (.text s))).get?.bind dir.party = column := by
    intro column hcolumn s hs
    obtain ⟨party, hparty, rfl⟩ := Option.map_eq_some_iff.1 hs
    obtain ⟨id, rfl, hid⟩ := Option.bind_eq_some_iff.1 hparty
    exact hcolumn id rfl party hid
  have htype : (replaced (if row.identityType = "" then Field.blank else .value row.identityType)
      (some row.identityType)).getD "" = row.identityType := by
    split
    next hblank => exact hblank.symm
    next => rfl
  rw [normalized_serialize hok hkept.canonical]
  simp only [applyAssetInput, Asset.serialize, replaced_asField, htype]
  rw [applyReference_asField (some row.transportTypeId) (by rw [htransport]; rfl) fun s hs => ?_,
    applyReference_asField row.ownerPartyId (leads_isSome hok.owner) (hparty howner),
    applyReference_asField row.operatorPartyId (leads_isSome hok.operator) (hparty hoperator)]
  · rfl
  · obtain ⟨t, ht, rfl⟩ := Option.map_eq_some_iff.1 hs
    exact hlead t ht

/-- The pattern that applies to an asset submitted again accepts it. -/
theorem describing_of_described (htypes : TypesOk compile types) (hok : AssetOk dir row) (h : Described compile types row)
    (resaved : Asset) (htransport : resaved.transportTypeId = row.transportTypeId) :
    ∃ d, describingType dir types false (typeName types row) resaved = .ok d ∧
      ∀ t ∈ d, patternAccepts compile t row.identity = true := by
  unfold Described at h
  split at h
  next hblank =>
    have hname : typeName types row = ((firstApplicable types row.transportTypeId).map (·.name)).getD "" := by
      rw [typeName, hblank, if_pos (by decide)]
    cases hfirst : firstApplicable types row.transportTypeId with
    | none =>
      -- No type has an empty name.
      have hno : ∀ id t, types.get? id = some t → t.name ≠ "" := fun id t hid => (htypes.ok id t hid).name.nonblank
      have hlive : liveNamed types "" = none := liveNamed_eq_none.2 fun id t hid _ => hno id t hid
      have harchived : archivedNamed types "" = none := by
        rw [archivedNamed_eq, List.find?_eq_none]
        intro t ht
        obtain ⟨id, hid⟩ := Table.mem_values.1 ht
        simp [hno id t hid]
      refine ⟨none, describingType_eq_ok.2 (.inr ?_), fun t ht => by cases ht⟩
      rw [hname, hfirst]
      exact ⟨rfl, hlive, harchived.symm⟩
    | some t =>
      obtain ⟨id, hid, hlive, hfits⟩ := mem_of_firstApplicable hfirst
      refine ⟨some t, describingType_eq_ok.2 (.inl ⟨t, ?_, by rw [htransport]; exact hfits, rfl⟩), ?_⟩
      · rw [hname, hfirst]
        exact liveNamed_of_get? htypes hid hlive
      · rintro _ ⟨⟩
        exact h id t hid hlive hfits
  next hne =>
    have hreads := hok.identityType.resolve_left hne
    have hname : typeName types row = row.identityType := by
      rw [typeName, if_neg hreads.strip_ne, hreads.stripped]
    rw [hname]
    cases hlive : liveNamed types row.identityType with
    | some t =>
      rw [hlive] at h
      refine ⟨some t, describingType_eq_ok.2 (.inl ⟨t, hlive, by rw [htransport]; exact h.1, rfl⟩), ?_⟩
      rintro _ ⟨⟩
      exact h.2
    | none =>
      rw [hlive] at h
      exact ⟨_, describingType_eq_ok.2 (.inr ⟨rfl, hlive, rfl⟩), h⟩

theorem isTouched_serialize (hok : AssetOk dir row) (hcanonical : canonicalType row.identityType = row.identityType) :
    isTouched (some row.identityType) (assetTransform (row.serialize dir)).normalized = false := by
  rw [normalized_serialize hok hcanonical]
  simp only [isTouched, Option.getD_some]
  rcases hok.identityType with hblank | hreads
  · rw [if_pos hblank]
    rfl
  · rw [if_neg hreads.nonblank, hreads.stripped]
    simp [Field.get?]

/-- The row that is stored when an asset is submitted as it was read. -/
def resaved (types : Table IdentityType) (row : Asset) : Asset :=
  if strip row.identityType = "" then { row with identityType := typeName types row } else row

theorem validateRequired_of_given {keys : List (String × Bool × Option String)} (h : ∀ e ∈ keys, e.2.1 = true) :
    validateRequired keys = .ok ⟨⟩ := by
  refine check_eq_ok.2 (List.map_eq_nil_iff.2 (List.filter_eq_nil_iff.2 fun e he => ?_))
  simp [h e he]

/-- **An asset that its type describes can be submitted again as it was read.** -/
theorem updateAsset_serialize {st : Store} (htypes : TypesOk compile st.identityTypes)
    (hrow : st.assets.get? id = some row) (hok : AssetOk dir row) (hkept : Kept compile dir st.identityTypes row)
    (hcodes : ∀ e ∈ st.assets.rows, e.1 = id ∨ e.2.assetCode ≠ row.assetCode)
    (hidentities : ∀ e ∈ st.assets.rows,
      e.1 = id ∨ (e.2.transportTypeId, e.2.identity) ≠ (row.transportTypeId, row.identity)) :
    ∃ st', updateAsset compile dir st id (row.serialize dir) = .ok st' := by
  have hitems := items_serialize hok hkept
  have happlies := applyAssetInput_serialize hok hkept
  have huntouched := isTouched_serialize hok hkept.canonical
  have hsame : ∃ name, resaved st.identityTypes row = { row with identityType := name } := by
    unfold resaved
    split
    · exact ⟨_, rfl⟩
    · exact ⟨row.identityType, rfl⟩
  obtain ⟨name, hsame⟩ := hsame
  have hchecked : validateAssetRecord compile dir st.identityTypes (some row.identityType) row
      (assetTransform (row.serialize dir)).normalized = .ok (resaved st.identityTypes row) := by
    refine validateAssetRecord_eq_ok.2 ⟨rfl, ?_, ?_⟩
    · rw [huntouched]
      obtain ⟨d, hd, haccepts⟩ := describing_of_described htypes hok hkept.described (resaved st.identityTypes row)
        (by rw [hsame])
      refine ⟨d, hd, fun t ht identity hidentity => ?_⟩
      have hgiven : (assetTransform (row.serialize dir)).normalized.identity = .value row.identity := by
        rw [normalized_serialize hok hkept.canonical]
        rfl
      rw [suppliedIdentity, hgiven] at hidentity
      obtain rfl : row.identity = identity := Option.some.inj (Option.filter_eq_some_iff.1 hidentity).1
      exact haccepts t ht
    · rw [hsame]
      exact hok.paired.trans (hasUnit_eq hok.capacityUnit).symm
  have hcapacity : ∃ capacity, row.capacityValue.mapM (store 12 3) = .ok capacity := by
    cases hv : row.capacityValue with
    | none => exact ⟨none, rfl⟩
    | some q =>
      obtain ⟨-, number, rfl⟩ := hok.capacityValue q hv
      exact ⟨some number, map_eq_ok.2 ⟨number, by simp, rfl⟩⟩
  obtain ⟨capacity, hcapacity⟩ := hcapacity
  have hflushed : ∃ stored, flushAsset dir st.assets id (resaved st.identityTypes row) = .ok stored := by
    rw [hsame]
    exact ⟨_, flushAsset_eq_ok.2
      ⟨⟨capacity, hcapacity, rfl⟩, hcodes, hidentities, hok.transportType, hok.owner, hok.operator⟩⟩
  obtain ⟨stored, hflushed⟩ := hflushed
  have hrequired : validateRequired ((assetTransform (row.serialize dir)).normalized.requiredKeys (some row)) = .ok ⟨⟩ := by
    obtain ⟨t, ht⟩ := Option.isSome_iff_exists.1 hok.transportType
    have hgiven := given_of_leads (hkept.leads.1 t ht)
    rw [normalized_serialize hok hkept.canonical]
    refine validateRequired_of_given fun e he => ?_
    simp only [AssetPayload.requiredKeys, List.mem_cons, List.not_mem_nil, or_false] at he
    rcases he with rfl | rfl | rfl
    · rfl
    · simp only [Asset.serialize, ht]
      exact hgiven
    · rfl
  have hstatus : (assetTransform (row.serialize dir)).normalized.status.given = true := by
    rw [normalized_serialize hok hkept.canonical]
    rfl
  refine ⟨{ st with assets := st.assets.modify id fun _ => stored }, ?_⟩
  simp only [updateAsset, bind_eq_ok, require_eq_ok, validate_eq_ok, check_eq_ok, pure_eq_ok]
  exact ⟨row, hrow, ⟨⟩, hitems, ⟨⟩, hrequired, row, happlies, _, hchecked, ⟨⟩, fun _ => hstatus, stored, hflushed, rfl⟩

end
end LcsSystem.Assets
