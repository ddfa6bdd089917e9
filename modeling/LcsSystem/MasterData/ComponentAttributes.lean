import LcsSystem.Operations.ComponentValues
import LcsSystem.MasterData.ComponentLayouts

/-!
# Attributes and their memberships

`create_attribute`, `update_attribute`, `delete_attribute` and the memberships of groups of
`src/backend/app/modules/master_data/component_config.py:68-205,375-559,740-811`. Saved rows hold their values under
the code of an attribute; whether it has any is asked of the groups that it is in.

Text is ASCII. `re.compile` is a parameter: the patterns it accepts. `inf` and `nan` are no numbers of a rule.
-/

namespace LcsSystem
open Relational Checks DecimalArith

/-- The keys of an attribute request, as the schema hands them on. -/
structure AttributePayload where
  label : Option String
  code : Option String
  labelKm : Option String
  dataType : Field DataType
  inputType : Option String
  referenceType : Field String
  isRequired : Option Bool
  defaultValue : Option String
  placeholder : Option String
  width : Option String
  options : Field (List Json)
  validationRules : Field (List (String × Json))
  status : Option String
  deriving DecidableEq

def AttributePayload.empty : AttributePayload :=
  ⟨none, none, none, .absent, none, .absent, none, none, none, none, .absent, .absent, none⟩

/-! ## Codes -/

/-- `_normalize_code`. -/
def normalizeCode (s : String) : String :=
  String.ofList ((normalized s).toList.map fun c => if c = ' ' ∨ c = '_' then '-' else c)

def isCodeChar (c : Char) : Bool := c.isLower || c.isDigit

/-- `_validated_code`. -/
def validatedCode (s : String) : Result String := do
  let code := normalizeCode s
  check (code ≠ "") (.invalid "An attribute code is required." [("code", "Required")])
  check (code.toList.length ≤ 64) (.invalid "The attribute code is too long." [("code", "At most 64 characters")])
  check (code.toList.head?.any isCodeChar && code.toList.all fun c => isCodeChar c || c == '-')
    (.invalid "The attribute code may contain lower-case letters, digits and hyphens only." [("code", "Invalid format")])
  return code

/-- `re.sub(r"[^a-z0-9]+", "-", text)`. -/
def hyphenated : List Char → List Char
  | [] => []
  | c :: cs =>
    if isCodeChar c then c :: hyphenated cs
    else match hyphenated cs with
      | '-' :: rest => '-' :: rest
      | rest => '-' :: rest

/-- `_derived_code`. -/
def derivedCode (label : String) : Result String := do
  let text := ((hyphenated (normalized label).toList).dropWhile (· == '-')).rdropWhile (· == '-')
  check (text ≠ []) (.invalid "An attribute code or label is required." [("code", "Required")])
  return String.ofList ((text.take 64).rdropWhile (· == '-'))

/-! ## Checks of an attribute -/

/-- `_option_texts`. -/
def optionTexts (options : List Json) : List String :=
  options.map fun option =>
    let candidate := match option with
      | .dict entries => ((entries.lookup "value").or (entries.lookup "label")).getD .null
      | option => option
    if candidate = .null then "" else strip (strOf candidate)

/-- `float(raw)`. -/
def floatOfJson : Json → Option ℚ
  | .bool b => some (if b then 1 else 0)
  | .num q => some (floatOf q)
  | .str s => (decimalText s).map floatOf
  | _ => none

/-- One of the numeric rules, if it is set. -/
def ruleNumber (rules : List (String × Json)) (key : String) : Result (Option ℚ) :=
  match rules.lookup key with
  | none | some .null | some (.str "") => .ok none
  | some raw => do
    let number ← require (floatOfJson raw) (.invalid ("Rule \"" ++ key ++ "\" must be a number.")
      [("validationRules", "\"" ++ key ++ "\" must be a number")])
    check (0 ≤ number) (.invalid ("Rule \"" ++ key ++ "\" cannot be negative.")
      [("validationRules", "\"" ++ key ++ "\" cannot be negative")])
    check (key ∈ ["minLength", "maxLength"] → number.den = 1) (.invalid ("Rule \"" ++ key ++ "\" must be a whole number.")
      [("validationRules", "\"" ++ key ++ "\" must be a whole number")])
    return some number

section
variable (compiles : String → Bool)

/-- The rules of an attribute. -/
def validateRules (rules : List (String × Json)) : Result PUnit := do
  let min ← ruleNumber rules "min"
  let max ← ruleNumber rules "max"
  let minLength ← ruleNumber rules "minLength"
  let maxLength ← ruleNumber rules "maxLength"
  check (∀ low ∈ min, ∀ high ∈ max, low ≤ high)
    (.invalid "The minimum cannot exceed the maximum." [("validationRules", "min is greater than max")])
  check (∀ low ∈ minLength, ∀ high ∈ maxLength, low ≤ high)
    (.invalid "The minimum length cannot exceed the maximum length."
      [("validationRules", "minLength is greater than maxLength")])
  let given := (rules.lookup "pattern").filter fun pattern => pattern ≠ .null ∧ pattern ≠ .str ""
  check (∀ pattern ∈ given, compiles (strOf pattern) = true)
    (.invalid "The pattern is not a valid regular expression." [("validationRules", "Invalid pattern")])

/-- `_validate_attribute_config`. -/
def validateAttributeConfig (a : ComponentAttribute) (typeSettings rulesChanged : Bool) : Result PUnit := do
  check (typeSettings = true → ∀ type ∈ a.referenceType, type ∈ referenceTypes)
    (.invalid "Choose a valid Master Data source." [("referenceType", "Unsupported")])
  check (typeSettings = true → a.dataType = .reference → ∃ type ∈ a.referenceType, type ∈ referenceTypes)
    (.invalid "A reference attribute needs a Master Data source." [("referenceType", "Required")])
  check (typeSettings = true → "" ∉ optionTexts a.options) (.invalid "Options cannot be blank." [("options", "Blank option")])
  check (typeSettings = true → (optionTexts a.options).Nodup) (.invalid "Options must be unique." [("options", "Duplicate option")])
  check (typeSettings = true → a.dataType ∈ [DataType.select, .multiSelect] → a.options ≠ [])
    (.invalid "A select attribute needs at least one option." [("options", "Required")])
  if rulesChanged then validateRules compiles a.validationRules

/-! ## Requests -/

/-- `_optional_text`. -/
def optionalText (value : Option String) : Option String := (value.map strip).filter fun text => text ≠ ""

def duplicateAttributeCode : Error :=
  .conflict "DUPLICATE_ATTRIBUTE_CODE" "An attribute with this code already exists." [("code", "Already in use")]

/-- The code of a new attribute. -/
def newCode (rawCode label : String) : Result String := if rawCode ≠ "" then validatedCode rawCode else derivedCode label

/-- `create_attribute`. -/
def createAttribute (db : ConfigDb) (p : AttributePayload) : Result ConfigDb := do
  let label := strip (p.label.getD "")
  check (label ≠ "") (.invalid "Label is required." [("label", "Required")])
  let code ← newCode (strip (p.code.getD "")) label
  check (∀ a ∈ db.attributes.values, a.code ≠ code) duplicateAttributeCode
  let a : ComponentAttribute := {
    code := code
    label := label
    labelKm := p.labelKm
    dataType := p.dataType.get?.getD .text
    inputType := p.inputType
    referenceType := p.referenceType.get?
    isRequired := p.isRequired.getD false
    defaultValue := p.defaultValue
    placeholder := optionalText p.placeholder
    width := p.width
    options := p.options.get?.getD []
    validationRules := p.validationRules.get?.getD []
    status := (p.status.filter fun status => status ≠ "").getD "ACTIVE" }
  validateAttributeConfig compiles a true true
  return { db with attributes := db.attributes.insert a }

/-- `_attribute_row_references`: rows of the groups that the attribute is in now. -/
def attributeRowReferences (db : ConfigDb) (attributeId : ℕ) : ℕ :=
  ((db.memberships.values.filter fun membership => membership.attributeId == attributeId).map fun membership =>
    (db.rows.select fun row => row.groupId == membership.groupId).length).sum

/-- `_rename_attribute`. -/
def renameAttribute (db : ConfigDb) (attributeId : ℕ) (a : ComponentAttribute) (rawCode : String) : Result String := do
  let code ← validatedCode rawCode
  if code = a.code then return code
  else
    check (∀ r ∈ db.attributes.rows, ¬(r.2.code = code ∧ r.1 ≠ attributeId)) duplicateAttributeCode
    check (attributeRowReferences db attributeId = 0) (.conflict "ATTRIBUTE_CODE_IN_USE"
      ("This field already has values saved against its code, so the code cannot change. " ++
        "Deactivate it and create a replacement field instead.") [("code", "In use by saved Service Orders")])
    return code

/-- The columns of an attribute after a request. -/
def ComponentAttribute.patched (a : ComponentAttribute) (p : AttributePayload) (code : String) : ComponentAttribute where
  code := code
  label := (p.label.map strip).getD a.label
  labelKm := p.labelKm.or a.labelKm
  dataType := p.dataType.get?.getD a.dataType
  inputType := p.inputType.or a.inputType
  referenceType := if p.referenceType = .absent then a.referenceType else p.referenceType.get?
  isRequired := p.isRequired.getD a.isRequired
  defaultValue := p.defaultValue.or a.defaultValue
  placeholder := if p.placeholder.isSome then optionalText p.placeholder else a.placeholder
  width := p.width.or a.width
  options := p.options.get?.getD a.options
  validationRules := p.validationRules.get?.getD a.validationRules
  status := p.status.getD a.status

/-- The code after the request. -/
def codeAfter (db : ConfigDb) (attributeId : ℕ) (a : ComponentAttribute) : Option String → Result String
  | some rawCode => renameAttribute db attributeId a rawCode
  | none => .ok a.code

/-- `update_attribute`. -/
def updateAttribute (db : ConfigDb) (attributeId : ℕ) (p : AttributePayload) : Result ConfigDb := do
  let a ← require (db.attributes.get? attributeId) (.notFound "Component attribute not found.")
  let code ← codeAfter db attributeId a p.code
  check (∀ label ∈ p.label, strip label ≠ "") (.invalid "Label is required." [("label", "Required")])
  validateAttributeConfig compiles (a.patched p code)
    (p.dataType ≠ .absent || p.options ≠ .absent || p.referenceType ≠ .absent) (p.validationRules ≠ .absent)
  return { db with attributes := db.attributes.modify attributeId fun _ => a.patched p code }

end

/-- `_attribute_in_published_snapshot`. -/
def inPublishedSnapshot (db : ConfigDb) (attributeId : ℕ) : Bool :=
  db.versions.values.any fun version => version.hasPublishedAt && version.configSnapshot.tabs.any fun tab =>
    tab.groups.any fun group => group.attributes.any fun a => a.id == attributeId

/-- The attribute has references that keep it from being deleted. -/
def attributeInUse (db : ConfigDb) (attributeId : ℕ) : Bool :=
  (db.memberships.values.any fun membership => membership.attributeId == attributeId) ||
    attributeRowReferences db attributeId ≠ 0 || inPublishedSnapshot db attributeId

/-- `delete_attribute`: one that is in use is only made inactive. -/
def deleteAttribute (db : ConfigDb) (attributeId : ℕ) : Result ConfigDb := do
  let _ ← require (db.attributes.get? attributeId) (.notFound "Component attribute not found.")
  if attributeInUse db attributeId then
    return { db with attributes := db.attributes.modify attributeId fun a => { a with status := "INACTIVE" } }
  else return { db with attributes := db.attributes.erase fun id _ => id == attributeId }

/-! ## Memberships -/

/-- The keys of a membership request, as the schema hands them on. -/
structure MembershipPayload where
  attributeId : Option ℕ
  code : Option String
  isRequired : Option Bool
  width : Option String
  displayOrder : Option ℤ
  isVisible : Option Bool
  status : Option String
  deriving DecidableEq

/-- `_resolve_attribute`. -/
def resolveAttribute (db : ConfigDb) (p : MembershipPayload) : Result ℕ :=
  match p.attributeId with
  | some attributeId => do
    let _ ← require (db.attributes.get? attributeId) (.notFound "Component attribute not found.")
    return attributeId
  | none => do
    let code ← require (p.code.filter fun code => code ≠ "")
      (.invalid "An attributeId or code is required." [("attributeId", "Required")])
    let found ← require (db.attributes.rows.find? fun r => r.2.code == code) (.notFound "Component attribute not found.")
    return found.1

/-- `add_group_attribute`. -/
def addGroupAttribute (db : ConfigDb) (groupId : ℕ) (p : MembershipPayload) : Result ConfigDb := do
  let _ ← require (db.groups.get? groupId) (.notFound "Component group not found.")
  let attributeId ← resolveAttribute db p
  let members := db.memberships.values.filter fun membership => membership.groupId == groupId
  check (∀ membership ∈ members, membership.attributeId ≠ attributeId)
    (.conflict "DUPLICATE_GROUP_ATTRIBUTE" "This attribute is already in the group." [("attributeId", "Already in use")])
  return { db with
    memberships := db.memberships.insert {
      groupId := groupId
      attributeId := attributeId
      isRequired := p.isRequired
      width := p.width
      displayOrder := p.displayOrder.getD ((members.map ComponentGroupAttribute.displayOrder).max?.getD 0 + 10)
      isVisible := p.isVisible.getD true
      status := (p.status.filter fun status => status ≠ "").getD "ACTIVE" } }

/-- `update_group_attribute`. -/
def updateGroupAttribute (db : ConfigDb) (membershipId : ℕ) (p : MembershipPayload) : Result ConfigDb := do
  let _ ← require (db.memberships.get? membershipId) (.notFound "Group attribute not found.")
  return { db with
    memberships := db.memberships.modify membershipId fun membership => { membership with
      isRequired := p.isRequired.or membership.isRequired
      width := p.width.or membership.width
      displayOrder := p.displayOrder.getD membership.displayOrder
      isVisible := p.isVisible.getD membership.isVisible
      status := p.status.getD membership.status } }

/-- `remove_group_attribute`. -/
def removeGroupAttribute (db : ConfigDb) (membershipId : ℕ) : Result ConfigDb := do
  let _ ← require (db.memberships.get? membershipId) (.notFound "Group attribute not found.")
  return { db with memberships := db.memberships.erase fun id _ => id == membershipId }

end LcsSystem
