import LcsSystem.Core.NormalForms

/-!
# Generic records, read and written back

The generic record store of `src/backend/app/modules/master_data/service.py:1496-1581`, with `core/crypto.py`. A read
shows a mask for what is secret and adds the id, the status and the times; the writer stores all it gets. What is read
and sent back with one key changed leaves the rest alone where `updateGeneric_keeps_iff` says.

| here           | there                                                                               |
|----------------|---------------------------------------------------------------------------------------|
| `ModuleRecord` | a row of `module_records`; its times are what `isoformat` prints                        |
| `Host`         | the token of `Fernet.encrypt`, `str` of what is not text, `utcnow`, and whether the flush finds a change |
-/

namespace LcsSystem.GenericRecords
open Schemas Entries Checks

structure ModuleRecord where
  id : ℕ
  recordNo : Option String
  status : Option String
  data : Payload
  createdAt : String
  updatedAt : String

structure Host where
  readers : Readers
  encrypt : String → String
  printed : PyValue → String
  now : String
  changed : Bool

/-! ## Secrets -/

def sensitiveFieldNames : List String :=
  ["password", "credential", "credentialreference", "customspassword", "customsaccountpassword", "secret", "clientsecret",
    "apikey", "api_key", "token", "privatekey"]

def isSensitiveField (name : String) : Bool :=
  sensitiveFieldNames.contains (lower (String.ofList (name.toList.map fun c => if c = '-' then '_' else c)))

/-- `_PREFIX`. -/
def secretPrefix : String := "enc:v1:"

def encryptSecret (encrypt : String → String) (value : String) : String :=
  if secretPrefix.toList.isPrefixOf value.toList then value else secretPrefix ++ encrypt value

def maskedSecret : String := "********"

/-- `_encrypt_payload`, of one entry. -/
def protectedValue (encrypt : String → String) (key : String) : PyValue → PyValue
  | .text s => if isSensitiveField key = true ∧ s ≠ "" then .text (encryptSecret encrypt s) else .text s
  | value => value

def encryptPayload (encrypt : String → String) (data : Payload) : Payload :=
  data.map fun e => (e.1, protectedValue encrypt e.1 e.2)

def shownValue (key : String) (value : PyValue) : PyValue :=
  if isSensitiveField key then .text maskedSecret else value

/-! ## Reading -/

/-- `dict.setdefault`. -/
def setDefault (payload : Payload) (key : String) (value : PyValue) : Payload :=
  if (payload.lookup key).isSome then payload else payload ++ [(key, value)]

def textOrNone : Option String → PyValue
  | some s => .text s
  | none => .none

/-- `_generic_payload`. -/
def genericPayload (row : ModuleRecord) : Payload :=
  let masked := row.data.map fun e => (e.1, shownValue e.1 e.2)
  let payload := overlay masked [("id", .text (toString row.id))]
  setDefault (setDefault (setDefault payload "status" (textOrNone row.status)) "createdAt" (.text row.createdAt))
    "updatedAt" (.text row.updatedAt)

/-! ## Writing -/

/-- `_GENERIC_SCHEMA`. -/
def genericSchema : RecordSchema where
  fields := [{ key := "code", maxLength := some 64 }, { key := "name", maxLength := some 255 },
    { key := "documentNo", maxLength := some 64 }, { key := "status", maxLength := some 32 }]
  crossField := []
  readonly := []
  rejectUnknown := false

/-- `bool`. -/
def truthy : PyValue → Bool
  | .none => false
  | .bool b => b
  | .int n => n != 0
  | .float value _ => value != 0
  | .decimal q => q != 0
  | .text s => s != ""
  | .list items => !items.isEmpty
  | .dict entries => !entries.isEmpty
  | _ => true

/-- `str`. -/
def Host.str (host : Host) : PyValue → String
  | .none => "None"
  | .bool true => "True"
  | .bool false => "False"
  | .int n => toString n
  | .text s => s
  | value => host.printed value

/-- The first of code, name and document number that holds something. -/
def recordNoOf (host : Host) (merged : Payload) : Option String :=
  match (["code", "name", "documentNo"].filterMap fun key => merged.lookup key).find? truthy with
  | some value => if host.str value = "" then none else some (host.str value)
  | none => none

/-- `update_generic` of a record that is there. -/
def updateGeneric (host : Host) (row : ModuleRecord) (data : Payload) : Result ModuleRecord := do
  let data ← genericSchema.validate host.readers data true
  let payload := encryptPayload host.encrypt (data.filter fun e => e.1 != "id")
  let merged := overlay row.data payload
  let status := match payload.lookup "status" with
    | some value => some (host.str value)
    | none => row.status
  let recordNo := recordNoOf host merged
  check (∀ n ∈ recordNo, n.length ≤ 64) (.database "value too long for type character varying(64)")
  return { row with
    data := merged
    status := status
    recordNo := recordNo
    updatedAt := if host.changed then host.now else row.updatedAt }

/-! ## What a read and a write leave under a key -/

section
variable {host : Host} {row row' : ModuleRecord} {data : Payload} {j k : String} {value : PyValue}

theorem lookup_setDefault (payload : Payload) :
    (setDefault payload k value).lookup j = (payload.lookup j).or (if j = k then some value else none) := by
  unfold setDefault
  split
  next hkey =>
    by_cases hj : j = k
    · subst hj
      obtain ⟨v, hv⟩ := Option.isSome_iff_exists.1 hkey
      rw [hv]
      rfl
    · rw [if_neg hj, Option.or_none]
  next hkey =>
    rw [List.lookup_append]
    by_cases hj : j = k
    · simp [hj]
    · rw [if_neg hj, List.lookup_cons, beq_eq_false_iff_ne.2 hj]
      rfl

/-- What a read adds under a key that the data has not. -/
def defaultValue (row : ModuleRecord) (key : String) : Option PyValue :=
  if key = "status" then some (textOrNone row.status)
  else if key = "createdAt" then some (.text row.createdAt)
  else if key = "updatedAt" then some (.text row.updatedAt)
  else none

/-- What the record has under a key: an entry of its data, or the column that stands in for it. -/
def ModuleRecord.value? (row : ModuleRecord) (key : String) : Option PyValue :=
  (row.data.lookup key).or (defaultValue row key)

theorem lookup_genericPayload : (genericPayload row).lookup j =
    if j = "id" then some (.text (toString row.id))
    else ((row.data.lookup j).map (shownValue j)).or (defaultValue row j) := by
  simp only [genericPayload, lookup_setDefault, lookup_overlay, lookup_map_value _ shownValue, defaultValue]
  by_cases hid : j = "id"
  · subst hid
    rfl
  · rw [List.lookup_cons, beq_eq_false_iff_ne.2 hid, if_neg hid]
    simp only [List.lookup_nil, Option.none_or]
    cases row.data.lookup j with
    | some value => simp
    | none =>
      by_cases hstatus : j = "status"
      · simp [hstatus]
      · by_cases hcreated : j = "createdAt"
        · simp [hcreated]
        · simp [hstatus, hcreated]

theorem lookup_encryptPayload (encrypt : String → String) :
    (encryptPayload encrypt data).lookup j = (data.lookup j).map (protectedValue encrypt j) :=
  lookup_map_value data (protectedValue encrypt) j

/-- An accepted update: the data as the schema leaves them, protected, over what was stored. -/
theorem lookup_updateGeneric (h : updateGeneric host row data = .ok row') :
    ∃ out, genericSchema.validate host.readers data true = .ok out ∧ row'.id = row.id ∧ row'.data.lookup j =
      ((if j = "id" then none else out.lookup j).map (protectedValue host.encrypt j)).or (row.data.lookup j) := by
  simp only [updateGeneric, bind_eq_ok, check_eq_ok, pure_eq_ok] at h
  obtain ⟨out, hout, ⟨⟩, -, rfl⟩ := h
  refine ⟨out, hout, rfl, ?_⟩
  rw [lookup_overlay, lookup_encryptPayload, lookup_filter_key fun key => key != "id"]
  by_cases hid : j = "id"
  · simp [hid]
  · simp [hid]

/-! ## What the schema makes of the fields -/

theorem genericSchema_sound : genericSchema.Sound where
  keys := by decide
  aliases := by decide
  apart := by decide
  rules := by simp [genericSchema]

def fieldKeys : List String := ["code", "name", "documentNo", "status"]

/-- A value of a field that the schema leaves as it is. -/
def Trimmed (value : PyValue) : Prop := value = .none ∨ ∃ s, value = .text s ∧ s ≠ "" ∧ strip s = s

theorem mem_fieldKeys : j ∈ fieldKeys ↔ ∃ spec ∈ genericSchema.fields, spec.key = j := by
  simp [fieldKeys, genericSchema, eq_comm]

theorem genericField {spec : FieldSpec} (h : spec ∈ genericSchema.fields) :
    spec.kind = .string ∧ spec.required = false ∧ spec.strip = true ∧ spec.aliases = [] ∧
      isSensitiveField spec.key = false ∧ spec.key ≠ "id" := by
  simp only [genericSchema, List.mem_cons, List.not_mem_nil, or_false] at h
  rcases h with rfl | rfl | rfl | rfl <;> decide

theorem source_genericField {spec : FieldSpec} (h : spec ∈ genericSchema.fields) :
    spec.source data = if (data.lookup spec.key).isSome then some spec.key else none := by
  rw [FieldSpec.source, (genericField h).2.2.2.1]
  rfl

/-- The schema changes what is not trimmed. -/
theorem normalize_eq_self {spec : FieldSpec} {out : PyValue} (hspec : spec ∈ genericSchema.fields)
    (h : Schemas.normalize host.readers spec value = .ok out) : out = value ↔ Trimmed value := by
  obtain ⟨hkind, hoptional, hstrip, -, -, -⟩ := genericField hspec
  unfold Schemas.normalize at h
  split at h
  next hblank =>
    simp only [blankValue, hoptional, hkind, bind_eq_ok, check_eq_ok, pure_eq_ok, reduceCtorEq, if_false] at h
    obtain ⟨⟨⟩, -, rfl⟩ := h
    constructor
    · rintro rfl
      exact .inl rfl
    · rintro (rfl | ⟨s, rfl, hne, htrimmed⟩)
      · rfl
      · exact absurd (htrimmed.symm.trans (beq_iff_eq.1 hblank)) hne
  next hblank =>
    simp only [hkind] at h
    obtain ⟨s, rfl, rfl⟩ := text_of_stringValue h
    simp only [hstrip, if_true, PyValue.text.injEq]
    constructor
    · intro htrimmed
      refine .inr ⟨s, rfl, ?_, htrimmed⟩
      rintro rfl
      exact hblank rfl
    · rintro (hnone | ⟨t, ht, -, htrimmed⟩)
      · cases hnone
      · obtain rfl := PyValue.text.inj ht
        exact htrimmed

/-- A key that is no field's is handed on. -/
theorem lookup_validated_other {out : Payload} (h : genericSchema.validate host.readers data true = .ok out)
    (hj : j ∉ fieldKeys) : out.lookup j = data.lookup j := by
  obtain ⟨-, rfl⟩ := validate_ok_iff.1 h
  refine lookup_normalized_other fun s hs source v hread => ?_
  have hsource := (read_eq_some.1 hread).1
  have hne : j ≠ s.key := fun hkey => hj (mem_fieldKeys.2 ⟨s, hs, hkey.symm⟩)
  rw [source_genericField hs] at hsource
  split at hsource
  · exact ⟨hne, Option.some.inj hsource ▸ hne⟩
  · cases hsource

/-- A field that the request has is normalised. -/
theorem lookup_validated_field {spec : FieldSpec} {out : Payload}
    (h : genericSchema.validate host.readers data true = .ok out) (hspec : spec ∈ genericSchema.fields)
    (hlookup : data.lookup spec.key = some value) :
    ∃ v, Schemas.normalize host.readers spec value = .ok v ∧ out.lookup spec.key = some v := by
  obtain ⟨hnone, rfl⟩ := validate_ok_iff.1 h
  have hsource : spec.source data = _ := source_genericField hspec
  rw [hlookup] at hsource
  obtain ⟨found, hfound⟩ := fieldErrors_eq_nil.1 (errors_eq_nil.1 hnone).2.1 spec hspec
  cases found with
  | none => exact absurd (hsource.symm.trans (read_eq_none.1 hfound).1) (by simp)
  | some entry =>
    obtain ⟨source, v⟩ := entry
    obtain ⟨hsource', hvalue⟩ := read_eq_some.1 hfound
    obtain rfl : spec.key = source := Option.some.inj (hsource.symm.trans hsource')
    rw [hlookup] at hvalue
    exact ⟨v, hvalue, lookup_normalized_key genericSchema_sound hspec hfound⟩

/-- The schema adds no key and takes none away. -/
theorem lookup_validated_eq_none {out : Payload} (h : genericSchema.validate host.readers data true = .ok out) :
    out.lookup j = none ↔ data.lookup j = none := by
  by_cases hj : j ∈ fieldKeys
  · obtain ⟨spec, hspec, rfl⟩ := mem_fieldKeys.1 hj
    cases hlookup : data.lookup spec.key with
    | none =>
      have hsource : spec.source data = _ := source_genericField hspec
      rw [hlookup] at hsource
      obtain ⟨-, rfl⟩ := validate_ok_iff.1 h
      exact iff_of_true (lookup_normalized_absent genericSchema_sound hspec hsource (.inl rfl)) rfl
    | some value =>
      obtain ⟨v, -, hv⟩ := lookup_validated_field h hspec hlookup
      rw [hv]
      simp
  · rw [lookup_validated_other h hj]

/-! ## The round trip -/

/-- What was read, with one key changed. -/
def sent (row : ModuleRecord) (key : String) (value : PyValue) : Payload := overlay (genericPayload row) [(key, value)]

theorem lookup_sent : (sent row k value).lookup j = if j = k then some value else (genericPayload row).lookup j := by
  rw [sent, lookup_overlay]
  by_cases hj : j = k
  · simp [hj]
  · rw [if_neg hj, List.lookup_cons, beq_eq_false_iff_ne.2 hj]
    rfl

theorem shownValue_of_not_sensitive (h : isSensitiveField j = false) : shownValue j value = value := by
  simp [shownValue, h]

theorem protectedValue_of_not_sensitive {encrypt : String → String} (h : isSensitiveField j = false) :
    protectedValue encrypt j value = value := by
  cases value <;> simp [protectedValue, h]

theorem protectedValue_of_sensitive {encrypt : String → String} {s : String} (h : isSensitiveField j = true) (hs : s ≠ "") :
    protectedValue encrypt j (.text s) = .text (encryptSecret encrypt s) := by
  simp [protectedValue, h, hs]

theorem shownValue_protectedValue (encrypt : String → String) :
    shownValue j (protectedValue encrypt j value) = shownValue j value := by
  cases hj : isSensitiveField j with
  | true => simp [shownValue, hj]
  | false => rw [protectedValue_of_not_sensitive hj]

theorem shownValue_shownValue : shownValue j (shownValue j value) = shownValue j value := by
  cases hj : isSensitiveField j with
  | true => simp [shownValue, hj]
  | false => simp only [shownValue_of_not_sensitive hj]

theorem defaultValue_eq_none {other : ModuleRecord} : defaultValue row j = none ↔ defaultValue other j = none := by
  unfold defaultValue
  split
  · simp
  · split
    · simp
    · split <;> simp

/-- A key that a read adds is not sensitive. -/
theorem not_sensitive_of_default {key : String} (h : defaultValue row key ≠ none) : isSensitiveField key = false := by
  by_cases hstatus : key = "status"
  · exact hstatus ▸ by decide
  · by_cases hcreated : key = "createdAt"
    · exact hcreated ▸ by decide
    · by_cases hupdated : key = "updatedAt"
      · exact hupdated ▸ by decide
      · simp [defaultValue, hstatus, hcreated, hupdated] at h

theorem lookup_genericPayload_of_not_sensitive (hid : j ≠ "id") (hj : isSensitiveField j = false) :
    (genericPayload row).lookup j = row.value? j := by
  rw [lookup_genericPayload, if_neg hid, ModuleRecord.value?]
  cases row.data.lookup j with
  | none => rfl
  | some value => simp [shownValue_of_not_sensitive hj]

/-- What is shown is shown as it is. -/
theorem map_shownValue_genericPayload (hid : j ≠ "id") :
    ((genericPayload row).lookup j).map (shownValue j) = (genericPayload row).lookup j := by
  rw [lookup_genericPayload, if_neg hid]
  cases row.data.lookup j with
  | some value => simp [shownValue_shownValue]
  | none =>
    cases hdefault : defaultValue row j with
    | none => rfl
    | some value =>
      have hplain : isSensitiveField j = false := not_sensitive_of_default fun hnone => by cases hdefault.symm.trans hnone
      simp [shownValue_of_not_sensitive hplain]

/-- After an accepted update, a key shows what the schema made of the request. -/
theorem lookup_shown_after (h : updateGeneric host row (sent row k value) = .ok row') (hid : j ≠ "id") :
    ∃ out, genericSchema.validate host.readers (sent row k value) true = .ok out ∧
      (genericPayload row').lookup j = (out.lookup j).map (shownValue j) := by
  obtain ⟨out, hout, -, hdata⟩ := lookup_updateGeneric (j := j) h
  refine ⟨out, hout, ?_⟩
  rw [if_neg hid] at hdata
  rw [lookup_genericPayload, if_neg hid, hdata]
  cases hj : out.lookup j with
  | some v => simp [shownValue_protectedValue]
  | none =>
    have hsent := (lookup_validated_eq_none hout).1 hj
    rw [lookup_sent] at hsent
    split at hsent
    · cases hsent
    · rw [lookup_genericPayload, if_neg hid, Option.or_eq_none_iff, Option.map_eq_none_iff] at hsent
      rw [hsent.1, defaultValue_eq_none.1 hsent.2]
      rfl

/-! ### The parts of the promise -/

/-- Under a key that is no field's the update shows what was sent. -/
theorem lookup_after_other (h : updateGeneric host row (sent row k value) = .ok row') (hid : j ≠ "id")
    (hj : j ∉ fieldKeys) :
    (genericPayload row').lookup j = ((sent row k value).lookup j).map (shownValue j) := by
  obtain ⟨out, hout, hshown⟩ := lookup_shown_after h hid
  rw [hshown, lookup_validated_other hout hj]

/-- A field that was not changed shows the same where what it showed is trimmed. -/
theorem lookup_after_field (h : updateGeneric host row (sent row k value) = .ok row') (hj : j ∈ fieldKeys)
    (hne : j ≠ k) :
    (genericPayload row').lookup j = (genericPayload row).lookup j ↔
      ∀ stored, row.value? j = some stored → Trimmed stored := by
  obtain ⟨spec, hspec, rfl⟩ := mem_fieldKeys.1 hj
  obtain ⟨-, -, -, -, hplain, hid⟩ := genericField hspec
  rw [← lookup_genericPayload_of_not_sensitive hid hplain]
  obtain ⟨out, hout, hshown⟩ := lookup_shown_after h hid
  have hsent : (sent row k value).lookup spec.key = (genericPayload row).lookup spec.key :=
    lookup_sent.trans (if_neg hne)
  rw [hshown]
  cases hread : (genericPayload row).lookup spec.key with
  | none =>
    rw [(lookup_validated_eq_none hout).2 (hsent.trans hread)]
    exact iff_of_true rfl fun stored hstored => absurd hstored (by simp)
  | some stored =>
    obtain ⟨v, hv, hlookup⟩ := lookup_validated_field hout hspec (hsent.trans hread)
    rw [hlookup, Option.map_some, shownValue_of_not_sensitive hplain, Option.some.injEq, normalize_eq_self hspec hv]
    exact ⟨fun htrimmed w hw => Option.some.inj hw ▸ htrimmed, fun hall => hall stored rfl⟩

/-- A secret is replaced by the mask, encrypted. -/
theorem lookup_after_secret (h : updateGeneric host row (sent row k value) = .ok row')
    (hk : isSensitiveField k = false) (hj : isSensitiveField j = true) {stored : PyValue}
    (hstored : row.data.lookup j = some stored) :
    row'.data.lookup j = some (.text (encryptSecret host.encrypt maskedSecret)) := by
  have hid : j ≠ "id" := by
    rintro rfl
    exact absurd hj (by decide)
  have hne : j ≠ k := by
    rintro rfl
    exact absurd hj (by simp [hk])
  have hfield : j ∉ fieldKeys := by
    intro hmem
    obtain ⟨spec, hspec, rfl⟩ := mem_fieldKeys.1 hmem
    obtain ⟨-, -, -, -, hplain, -⟩ := genericField hspec
    exact absurd hj (by simp [hplain])
  obtain ⟨out, hout, -, hdata⟩ := lookup_updateGeneric (j := j) h
  have hmask : out.lookup j = some (.text maskedSecret) := by
    rw [lookup_validated_other hout hfield, lookup_sent, if_neg hne, lookup_genericPayload, if_neg hid, hstored]
    simp [shownValue, hj]
  rw [hdata, if_neg hid, hmask, Option.map_some, protectedValue_of_sensitive hj (by decide)]
  rfl

/-- The next read shows what the last one did, apart from the key that was changed and the time of the update, and no
stored secret is touched. -/
structure KeepsTheRest (host : Host) (row row' : ModuleRecord) (key : String) : Prop where
  others : ∀ j, j ≠ key → j ≠ "updatedAt" → (genericPayload row').lookup j = (genericPayload row).lookup j
  moved : (genericPayload row').lookup "updatedAt" = some (.text host.now)
  secrets : ∀ j value, isSensitiveField j = true → row.data.lookup j = some value → row'.data.lookup j = some value

theorem others_iff (h : updateGeneric host row (sent row k value) = .ok row') :
    (∀ j, j ≠ k → j ≠ "updatedAt" → (genericPayload row').lookup j = (genericPayload row).lookup j) ↔
      ∀ j ∈ fieldKeys, j ≠ k → ∀ stored, row.value? j = some stored → Trimmed stored := by
  constructor
  · intro hsame j hj hne
    have hupdated : j ≠ "updatedAt" := by
      rintro rfl
      exact absurd hj (by decide)
    exact (lookup_after_field h hj hne).1 (hsame j hne hupdated)
  · intro htrimmed j hne _
    by_cases hid : j = "id"
    · subst hid
      obtain ⟨-, -, hsame, -⟩ := lookup_updateGeneric (j := "id") h
      rw [lookup_genericPayload, lookup_genericPayload, if_pos rfl, if_pos rfl, hsame]
    · by_cases hj : j ∈ fieldKeys
      · exact (lookup_after_field h hj hne).2 (htrimmed j hj hne)
      · rw [lookup_after_other h hid hj, lookup_sent, if_neg hne, map_shownValue_genericPayload hid]

theorem moved_iff (h : updateGeneric host row (sent row k value) = .ok row') :
    (genericPayload row').lookup "updatedAt" = some (.text host.now) ↔
      (if k = "updatedAt" then some value else row.value? "updatedAt") = some (.text host.now) := by
  have hplain : ∀ v, shownValue "updatedAt" v = v := fun v => shownValue_of_not_sensitive (by decide)
  have hread : (genericPayload row).lookup "updatedAt" = row.value? "updatedAt" :=
    lookup_genericPayload_of_not_sensitive (by decide) (by decide)
  rw [lookup_after_other h (by decide) (by decide), funext hplain, lookup_sent, hread]
  simp [eq_comm]

end

/-- **A record read and sent back with one key changed** keeps all the rest, its secrets and the time of the update
included, exactly if that time stands under `updatedAt` already, every other field is null or trimmed text, and every stored
secret is the mask encrypted. -/
theorem updateGeneric_keeps_iff (host : Host) (row row' : ModuleRecord) (key : String) (value : PyValue)
    (hkey : isSensitiveField key = false) (h : updateGeneric host row (sent row key value) = .ok row') :
    KeepsTheRest host row row' key ↔
      (if key = "updatedAt" then some value else row.value? "updatedAt") = some (.text host.now) ∧
      (∀ j ∈ fieldKeys, j ≠ key → ∀ stored, row.value? j = some stored → Trimmed stored) ∧
      ∀ j stored, isSensitiveField j = true → row.data.lookup j = some stored →
        stored = .text (encryptSecret host.encrypt maskedSecret) := by
  constructor
  · intro hkeeps
    refine ⟨(moved_iff h).1 hkeeps.moved, (others_iff h).1 hkeeps.others, fun j stored hj hstored => ?_⟩
    have hafter := lookup_after_secret h hkey hj hstored
    exact Option.some.inj ((hkeeps.secrets j stored hj hstored).symm.trans hafter)
  · rintro ⟨hmoved, htrimmed, hsecrets⟩
    exact
      { others := (others_iff h).2 htrimmed
        moved := (moved_iff h).2 hmoved
        secrets := fun j stored hj hstored =>
          (lookup_after_secret h hkey hj hstored).trans (congrArg some (hsecrets j stored hj hstored).symm) }

/-! ### A record of a customs portal -/

def portalHost : Host where
  readers := plainReaders
  encrypt := fun _ => "gAAAAB"
  printed := fun _ => "0"
  now := "2026-03-02T08:00:00+00:00"
  changed := true

def portalRecord (data : Payload) : ModuleRecord where
  id := 7
  recordNo := some "Customs portal"
  status := some "Active"
  data := data
  createdAt := "2026-01-05T08:00:00+00:00"
  updatedAt := "2026-02-01T08:00:00+00:00"

/-- The record has the time of the update in its data and no secret. -/
theorem updateGeneric_keeps_iff_portal :
    ∃ row', updateGeneric portalHost (portalRecord [("updatedAt", .text "2026-03-02T08:00:00+00:00")])
        (sent (portalRecord [("updatedAt", .text "2026-03-02T08:00:00+00:00")]) "note" (.text "renewed")) = .ok row' ∧
      KeepsTheRest portalHost (portalRecord [("updatedAt", .text "2026-03-02T08:00:00+00:00")]) row' "note" := by
  have hstatus : Trimmed (.text "Active") := .inr ⟨"Active", rfl, by decide, by decide⟩
  obtain ⟨row', h⟩ : ∃ row', updateGeneric portalHost (portalRecord [("updatedAt", .text "2026-03-02T08:00:00+00:00")])
      (sent (portalRecord [("updatedAt", .text "2026-03-02T08:00:00+00:00")]) "note" (.text "renewed")) = .ok row' :=
    ⟨_, rfl⟩
  refine ⟨row', h, (updateGeneric_keeps_iff portalHost _ _ "note" _ (by decide) h).2 ⟨rfl, ?_, ?_⟩⟩
  · intro j hj _ stored hstored
    simp only [fieldKeys, List.mem_cons, List.not_mem_nil, or_false] at hj
    rcases hj with rfl | rfl | rfl | rfl <;>
      simp [ModuleRecord.value?, portalRecord, defaultValue, textOrNone, List.lookup_cons] at hstored
    exact hstored ▸ hstatus
  · intro j stored hj hstored
    have hmem := List.mem_singleton.1 (Entries.mem_of_lookup hstored)
    obtain ⟨rfl, -⟩ := Prod.mk.inj hmem
    exact absurd hj (by decide)

/-- A note is changed: the password becomes the mask, and the time that is shown stays. -/
theorem password_overwritten :
    ∃ row', updateGeneric portalHost (portalRecord [("password", .text "enc:v1:gAAAAC")])
        (sent (portalRecord [("password", .text "enc:v1:gAAAAC")]) "note" (.text "renewed")) = .ok row' ∧
      row'.data.lookup "password" = some (.text "enc:v1:gAAAAB") ∧
      (genericPayload row').lookup "updatedAt" = some (.text "2026-02-01T08:00:00+00:00") ∧
      ¬KeepsTheRest portalHost (portalRecord [("password", .text "enc:v1:gAAAAC")]) row' "note" := by
  refine ⟨_, rfl, rfl, rfl, fun hkeeps => ?_⟩
  have hsecret : some (PyValue.text "enc:v1:gAAAAB") = some (.text "enc:v1:gAAAAC") :=
    hkeeps.secrets "password" (.text "enc:v1:gAAAAC") (by decide) rfl
  exact absurd (PyValue.text.inj (Option.some.inj hsecret)) (by decide)

end LcsSystem.GenericRecords
