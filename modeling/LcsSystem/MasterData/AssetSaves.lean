import LcsSystem.MasterData.TransportAssets

/-!
# What an accepted save of an asset stores

* `AssetOk`: the columns of a stored asset read as themselves, its capacity is paired, its references exist;
* `Request`, `createAsset_eq_ok`, `updateAsset_eq_ok`: both requests in one form;
* `assetOk_of_request`: every accepted one stores such a row;
* `validateAssetRecord_eq_ok`: what the check of the identity type lets through.
-/

namespace LcsSystem.Assets
open Relational Checks DecimalArith

/-! ## Texts -/

/-- A text that the schema hands on as it is. -/
structure Reads (spec : TextSpec) (s : String) : Prop where
  stripped : strip s = s
  nonblank : s ≠ ""
  accepted : spec.check (.value s) = []

variable {spec : TextSpec} {key s : String} {f : Field String} {current : Option String} {isPartial : Bool}

@[simp] theorem text_text (f : Field String) : f.text.text = f.text := by
  cases f with
  | value s => by_cases h : strip s = "" <;> simp [Field.text, h]
  | _ => rfl

@[simp] theorem check_text : spec.check f.text = spec.check f := by
  simp only [TextSpec.check, text_text]

theorem text_of_get? (h : f.text.get? = some s) : f.text = .value s := by
  cases hf : f.text with
  | value s' =>
    rw [hf] at h
    exact congrArg Field.value (Option.some.inj h)
  | _ =>
    rw [hf] at h
    cases h

theorem reads_of_check (h : spec.check f = []) (hs : f.text.get? = some s) : Reads spec s := by
  obtain ⟨hstrip, hne⟩ := text_get?_eq_some hs
  refine ⟨hstrip, hne, ?_⟩
  rw [← text_of_get? hs, check_text]
  exact h

theorem Reads.text (h : Reads spec s) : (Field.value s).text = .value s := by
  rw [Field.text, h.stripped, if_neg h.nonblank]

theorem Reads.strip_ne (h : Reads spec s) : strip s ≠ "" := by
  rw [h.stripped]
  exact h.nonblank

/-- A required column behind a save. -/
theorem reads_getD {stored : String} (h : requiredItems isPartial key spec.check f.text = [])
    (hcurrent : isPartial = true → Reads spec stored) : Reads spec (f.text.get?.getD stored) := by
  cases hs : f.text.get? with
  | some s =>
    have hsent : f.text.sent = true := by rw [text_of_get? hs]; rfl
    have hgiven : f.text.given = true := by rw [text_of_get? hs]; rfl
    rw [requiredItems, if_neg (by simp [hsent]), checkRequired, if_pos hgiven, check_text] at h
    exact reads_of_check h hs
  | none =>
    cases isPartial with
    | true => exact hcurrent rfl
    | false =>
      rw [requiredItems, Bool.false_and, if_neg (by decide), checkRequired] at h
      cases hf : f.text with
      | value s => rw [hf] at hs; cases hs
      | malformed =>
        have htwice : f.text.text = .malformed := by rw [text_text, hf]
        rw [if_pos (by rw [hf]; rfl), TextSpec.check, htwice] at h
        cases h
      | _ => simp [hf, Field.given] at h

/-- An optional column behind a save. -/
theorem reads_replaced (h : spec.check f = []) (hcurrent : ∀ s ∈ current, Reads spec s) :
    ∀ s ∈ replaced f.text current, Reads spec s := by
  unfold replaced
  split
  · exact fun s hs => reads_of_check h hs
  · exact hcurrent

/-! ## Stored assets -/

structure AssetOk (dir : Directory) (row : Asset) : Prop where
  assetCode : Reads assetCodeSpec row.assetCode
  assetName : ∀ s ∈ row.assetName, Reads assetNameSpec s
  identity : Reads identitySpec row.identity
  identityType : row.identityType = "" ∨ Reads identityTypeSpec row.identityType
  capacityValue : ∀ q ∈ row.capacityValue, 0 ≤ q ∧ ∃ stored : Numeric 12 3, stored.val = q
  capacityUnit : ∀ s ∈ row.capacityUnit, Reads capacityUnitSpec s
  paired : row.capacityValue.isSome = row.capacityUnit.isSome
  description : ∀ s ∈ row.description, Reads descriptionSpec s
  status : strip row.status = row.status ∧ row.status ≠ "" ∧ statusSpec.checkChoice assetStatuses (.value row.status) = []
  transportType : (dir.transportTypes.get? row.transportTypeId).isSome = true
  owner : ∀ owner ∈ row.ownerPartyId, (dir.parties.get? owner).isSome = true
  operator : ∀ operator ∈ row.operatorPartyId, (dir.parties.get? operator).isSome = true

theorem hasUnit_eq {row : Asset} (h : ∀ s ∈ row.capacityUnit, Reads capacityUnitSpec s) :
    row.hasUnit = row.capacityUnit.isSome := by
  rw [Asset.hasUnit]
  cases hunit : row.capacityUnit with
  | none => rfl
  | some unit => simpa using (h unit hunit).strip_ne

/-! ## Both requests -/

/-- A save goes through: the row it is applied to, its body, and what is stored under the key. -/
structure Request (compile : Compile) (dir : Directory) (s : Store) (id : ℕ) (isPartial : Bool) (current : Asset)
    (body : AssetPayload) (applied stored : Asset) : Prop where
  items : (assetTransform body).items isPartial = []
  applies : applyAssetInput dir current (assetTransform body).normalized = .ok applied
  checks : ∃ row, validateAssetRecord compile dir s.identityTypes (if isPartial then some current.identityType else none)
    applied (assetTransform body).normalized = .ok row ∧ flushAsset dir s.assets id row = .ok stored

section
variable {compile : Compile} {dir : Directory} {s' t : Store} {id : ℕ} {body : AssetPayload} {st : Store}

theorem validate_eq_ok {items : List FieldErrorItem} {u : PUnit} : RecordSchema.validate items = .ok u ↔ items = [] := check_eq_ok

theorem request_of_create (h : createAsset compile dir st body = .ok s') :
    ∃ applied stored, Request compile dir st st.assets.nextId false newAsset body applied stored ∧
      s' = { st with assets := st.assets.insert stored } := by
  simp only [createAsset, bind_eq_ok, validate_eq_ok, pure_eq_ok] at h
  obtain ⟨-, hitems, -, -, applied, happlies, row, hrow, stored, hstored, rfl⟩ := h
  exact ⟨applied, stored, ⟨hitems, happlies, row, hrow, hstored⟩, rfl⟩

theorem request_of_update (h : updateAsset compile dir st id body = .ok s') :
    ∃ current applied stored, st.assets.get? id = some current ∧
      Request compile dir st id true current body applied stored ∧
        s' = { st with assets := st.assets.modify id fun _ => stored } := by
  simp only [updateAsset, bind_eq_ok, require_eq_ok, validate_eq_ok, pure_eq_ok] at h
  obtain ⟨current, hcurrent, -, hitems, -, -, applied, happlies, row, hrow, -, -, stored, hstored, rfl⟩ := h
  exact ⟨current, applied, stored, hcurrent, ⟨hitems, happlies, row, hrow, hstored⟩, rfl⟩

/-! ## The three parts of a request -/

section
variable {types : Table IdentityType} {touched : Bool} {name : String} {row applied stored : Asset} {d : Option IdentityType}
  {storedType : Option String} {p : AssetPayload} {assets : Table Asset}

theorem describingType_eq_ok : describingType dir types touched name row = .ok d ↔
    (∃ t, liveNamed types name = some t ∧ t.fits row.transportTypeId = true ∧ d = some t) ∨
      (touched = false ∧ liveNamed types name = none ∧ d = archivedNamed types name) := by
  unfold describingType checkFits
  cases hlive : liveNamed types name with
  | some t => cases touched <;> simp [require, @eq_comm _ d]
  | none => cases touched <;> simp [require, @eq_comm _ d]

/-- What `_validate_asset_record` lets through. -/
structure Checked (compile : Compile) (dir : Directory) (types : Table IdentityType) (storedType : Option String)
    (applied : Asset) (p : AssetPayload) (row : Asset) : Prop where
  row_eq : row =
    if strip applied.identityType = "" then { applied with identityType := typeName types applied } else applied
  described : ∃ d, describingType dir types (isTouched storedType p) (typeName types applied) row = .ok d ∧
    ∀ t ∈ d, ∀ identity ∈ suppliedIdentity (isTouched storedType p) row p, patternAccepts compile t identity = true
  paired : row.capacityValue.isSome = row.hasUnit

theorem validateAssetRecord_eq_ok :
    validateAssetRecord compile dir types storedType applied p = .ok row ↔
      Checked compile dir types storedType applied p row := by
  simp only [validateAssetRecord, checkIdentity, checkCapacity, bind_eq_ok, check_eq_ok, pure_eq_ok]
  constructor
  · rintro ⟨d, hd, -, hidentity, -, ⟨-, hunit, hvalue⟩, rfl⟩
    exact ⟨rfl, ⟨d, hd, hidentity⟩, Bool.eq_iff_iff.2 ⟨hunit, hvalue⟩⟩
  · rintro ⟨rfl, ⟨d, hd, hidentity⟩, hpaired⟩
    exact ⟨d, hd, ⟨⟩, hidentity, ⟨⟩, ⟨⟨⟩, hpaired ▸ id, hpaired ▸ id⟩, rfl⟩

/-- What the database takes. -/
structure Flushed (dir : Directory) (assets : Table Asset) (id : ℕ) (row stored : Asset) : Prop where
  capacity : ∃ capacity, row.capacityValue.mapM (store 12 3) = .ok capacity ∧
    stored = { row with capacityValue := capacity.map Numeric.val }
  codes : ∀ e ∈ assets.rows, e.1 = id ∨ e.2.assetCode ≠ row.assetCode
  identities : ∀ e ∈ assets.rows, e.1 = id ∨ (e.2.transportTypeId, e.2.identity) ≠ (row.transportTypeId, row.identity)
  transportType : (dir.transportTypes.get? row.transportTypeId).isSome = true
  owner : ∀ owner ∈ row.ownerPartyId, (dir.parties.get? owner).isSome = true
  operator : ∀ operator ∈ row.operatorPartyId, (dir.parties.get? operator).isSome = true

theorem flushAsset_eq_ok : flushAsset dir assets id row = .ok stored ↔ Flushed dir assets id row stored := by
  simp only [flushAsset, bind_eq_ok, check_eq_ok, pure_eq_ok]
  constructor
  · rintro ⟨capacity, hcapacity, -, hcodes, -, hidentities, -, htransport, -, ⟨howner, hoperator⟩, rfl⟩
    exact ⟨⟨capacity, hcapacity, rfl⟩, hcodes, hidentities, htransport, howner, hoperator⟩
  · rintro ⟨⟨capacity, hcapacity, rfl⟩, hcodes, hidentities, htransport, howner, hoperator⟩
    exact ⟨capacity, hcapacity, ⟨⟩, hcodes, ⟨⟩, hidentities, ⟨⟩, htransport, ⟨⟩, ⟨howner, hoperator⟩, rfl⟩

end
end

/-! ## What is stored -/

structure TypeOk (compile : Compile) (t : IdentityType) : Prop where
  name : Reads nameSpec t.name
  pattern : ∀ pattern ∈ t.validationPattern, pattern ≠ "" ∧ ∃ fullmatch, compile (strip pattern) = .ok fullmatch

section
variable {compile : Compile} {dir : Directory} {st : Store} {id : ℕ} {body : AssetPayload} {types : Table IdentityType}
  {t : IdentityType} {row applied stored stored' : Asset}

theorem mem_liveTypes : t ∈ liveTypes types ↔ ∃ id, types.get? id = some t ∧ t.deleted = false := by
  simp [liveTypes, Table.mem_values]

theorem reads_typeName (htypes : ∀ id t, types.get? id = some t → TypeOk compile t)
    (hrow : row.identityType = "" ∨ Reads identityTypeSpec row.identityType) :
    typeName types row = "" ∨ Reads identityTypeSpec (typeName types row) := by
  unfold typeName
  rcases hrow with hblank | hreads
  · rw [hblank, if_pos (by decide)]
    cases hfirst : firstApplicable types row.transportTypeId with
    | none => exact .inl rfl
    | some t =>
      obtain ⟨id, hid, -⟩ := mem_liveTypes.1 (List.mem_of_find?_eq_some hfirst)
      have hname := (htypes id t hid).name
      refine .inr ⟨hname.stripped, hname.nonblank, ?_⟩
      exact TextSpec.check_value_eq_nil.2 (TextSpec.check_value_eq_nil.1 hname.accepted)
  · rw [if_neg hreads.strip_ne, hreads.stripped]
    exact .inr hreads

theorem choice_of_check {spec : TextSpec} {choices : List String} {f : Field String} {s : String}
    (h : spec.checkChoice choices f = []) (hs : f.text.get? = some s) :
    strip s = s ∧ s ≠ "" ∧ spec.checkChoice choices (.value s) = [] := by
  obtain ⟨hstrip, hne⟩ := text_get?_eq_some hs
  refine ⟨hstrip, hne, ?_⟩
  rw [← text_of_get? hs]
  simp only [TextSpec.checkChoice, check_text, text_text]
  exact h

theorem store_nonneg {q : ℚ} {capacity : Option (Numeric 12 3)} {value : Option ℚ} (hq : ∀ q ∈ value, 0 ≤ q)
    (h : value.mapM (store 12 3) = .ok capacity) (hmem : q ∈ capacity.map Numeric.val) :
    0 ≤ q ∧ ∃ stored : Numeric 12 3, stored.val = q := by
  cases value with
  | none =>
    cases h
    cases hmem
  | some given =>
    obtain ⟨number, hnumber, rfl⟩ := map_eq_ok.1 h
    obtain rfl := Option.some.inj hmem
    refine ⟨?_, number, rfl⟩
    rw [val_of_store hnumber]
    exact roundHalfUp_nonneg (hq given rfl)

/-- **An accepted save stores a row that reads as it is.** -/
theorem assetOk_of_request {isPartial : Bool} {current : Asset}
    (htypes : ∀ id t, st.identityTypes.get? id = some t → TypeOk compile t)
    (hcurrent : isPartial = true → AssetOk dir current) (hnew : isPartial = false → current = newAsset)
    (h : Request compile dir st id isPartial current body applied stored) : AssetOk dir stored := by
  obtain ⟨hitems, happlies, row, hrow, hstored⟩ := h
  obtain ⟨hrow_eq, -, hpaired⟩ := validateAssetRecord_eq_ok.1 hrow
  obtain ⟨⟨capacity, hcapacity, rfl⟩, -, -, htransport, howner, hoperator⟩ := flushAsset_eq_ok.1 hstored
  simp only [AssetPayload.items, List.append_eq_nil_iff] at hitems
  obtain ⟨⟨⟨⟨⟨⟨⟨⟨⟨⟨hcode, hname⟩, hidentity⟩, htype⟩, hvalue⟩, hunit⟩, hdescription⟩, hstatus⟩, -⟩, -⟩, -⟩ := hitems
  -- The columns of the row before and after the check of the identity type.
  have hcases : current = newAsset ∨ AssetOk dir current := by
    cases isPartial with
    | true => exact .inr (hcurrent rfl)
    | false => exact .inl (hnew rfl)
  simp only [applyAssetInput, bind_eq_ok, pure_eq_ok] at happlies
  obtain ⟨transportType, -, owner, -, operator, -, happlied⟩ := happlies
  have happliedType : applied.identityType = "" ∨ Reads identityTypeSpec applied.identityType := by
    rw [← happlied]
    simp only [replaced]
    split
    · cases hs : (assetTransform body).identityType.text.get? with
      | none => exact .inl (by simp [AssetPayload.normalized, hs])
      | some s => exact .inr (by simpa [AssetPayload.normalized, hs] using reads_of_check htype hs)
    · rcases hcases with rfl | hok
      · exact .inl rfl
      · exact hok.identityType
  have hunits : ∀ s ∈ applied.capacityUnit, Reads capacityUnitSpec s := by
    rw [← happlied]
    refine reads_replaced hunit fun s hs => ?_
    rcases hcases with rfl | hok
    · cases hs
    · exact hok.capacityUnit s hs
  have hvalues : ∀ q ∈ applied.capacityValue, 0 ≤ q := by
    rw [← happlied]
    intro q hq
    simp only [replaced] at hq
    split at hq
    · cases hv : (assetTransform body).capacityValue with
      | value q' =>
        simp only [AssetPayload.normalized, hv, Field.get?, Option.mem_some_iff] at hq
        rw [hv] at hvalue
        exact hq ▸ DecimalSpec.minimum_le (b := ⟨0, "0"⟩) rfl hvalue
      | _ => simp [AssetPayload.normalized, hv, Field.get?] at hq
    · rcases hcases with rfl | hok
      · cases hq
      · exact (hok.capacityValue q hq).1
  have hsame : row = { applied with identityType := row.identityType } ∧
      (row.identityType = "" ∨ Reads identityTypeSpec row.identityType) := by
    have hname := reads_typeName htypes happliedType
    generalize typeName st.identityTypes applied = name at hrow_eq hname
    rw [hrow_eq]
    split
    · exact ⟨rfl, hname⟩
    · exact ⟨rfl, happliedType⟩
  obtain ⟨hsame, hrowType⟩ := hsame
  have hvalue_some : (capacity.map Numeric.val).isSome = row.capacityValue.isSome := by
    cases hv : row.capacityValue with
    | none =>
      rw [hv] at hcapacity
      cases hcapacity
      rfl
    | some q =>
      rw [hv] at hcapacity
      obtain ⟨number, -, rfl⟩ := map_eq_ok.1 hcapacity
      rfl
  have hrowUnit : ∀ s ∈ row.capacityUnit, Reads capacityUnitSpec s := by
    rw [hsame]
    exact hunits
  exact {
    assetCode := by
      rw [hsame, ← happlied]
      exact reads_getD hcode fun hupdate => (hcurrent hupdate).assetCode
    assetName := by
      rw [hsame, ← happlied]
      refine reads_replaced hname fun s hs => ?_
      rcases hcases with rfl | hok
      · cases hs
      · exact hok.assetName s hs
    identity := by
      rw [hsame, ← happlied]
      exact reads_getD hidentity fun hupdate => (hcurrent hupdate).identity
    identityType := hrowType
    capacityValue := fun q hq => store_nonneg (hsame ▸ hvalues) hcapacity hq
    capacityUnit := hrowUnit
    paired := by
      rw [hvalue_some, hpaired]
      exact hasUnit_eq hrowUnit
    description := by
      rw [hsame, ← happlied]
      refine reads_replaced hdescription fun s hs => ?_
      rcases hcases with rfl | hok
      · cases hs
      · exact hok.description s hs
    status := by
      rw [hsame, ← happlied]
      simp only [AssetPayload.normalized]
      cases hs : (assetTransform body).status.text.get? with
      | some s => exact choice_of_check hstatus hs
      | none =>
        rcases hcases with rfl | hok
        · exact ⟨by decide +kernel, by decide, by decide +kernel⟩
        · exact hok.status
    transportType := htransport
    owner := howner
    operator := hoperator }

end
end LcsSystem.Assets
