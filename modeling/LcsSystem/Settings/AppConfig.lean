import LcsSystem.Core.Validation
import LcsSystem.Lib.JsonMerge
import LcsSystem.Lib.Transactions

/-!
# Application settings

`update_app_config` (`src/backend/app/modules/settings/service.py:397-475`) and `core/localization.py`. A request reads
all groups, merges its patch into them in memory, and writes the groups that differ from the rows its session holds.

| here | there |
|---|---|
| `SettingsDb.groups` | the rows of `app_settings`, each group with its JSON object |
| `SettingsRules` | the clock, `prepare_patch` of Telegram and the two validations |
| `storedGroups` | the upserts: a row is updated when its value is not the one that was loaded |
| `settingsProtocol` | the transaction: the lock on the Telegram row, the read, the writes with the commit |

The table has at least one row, so the legacy record is never read; its copy and the audit row are left out.
-/

namespace LcsSystem
open Relational Transition Transactions

abbrev Groups := List (String × Json)

/-- The code around the merge that is outside of this file. -/
structure SettingsRules where
  now : String
  /-- `prepare_patch`, of the patch and the current Telegram group; it may refuse. -/
  prepareTelegram : Json → Json → Option Json
  /-- `_validate_backup_config` and `_validate_app_config`, of the patch and the merged configuration. -/
  accepts : Groups → Groups → Bool

/-! ## Localization -/

def supportedLanguages : List Json := [.str "en", .str "km", .str "zh"]

def supportedTimezones : List Json :=
  ["Asia/Phnom_Penh", "Asia/Bangkok", "Asia/Ho_Chi_Minh", "Asia/Singapore", "Asia/Jakarta", "Asia/Kuala_Lumpur",
    "Asia/Manila", "Asia/Tokyo", "Asia/Seoul", "Asia/Shanghai", "Asia/Hong_Kong", "Asia/Dubai", "Asia/Kolkata",
    "Europe/London", "Europe/Paris", "America/New_York", "America/Los_Angeles", "UTC"].map .str

def supportedDateFormats : List Json :=
  ["YYYY-MM-DD", "DD/MM/YYYY", "MM/DD/YYYY", "DD-MM-YYYY", "D MMM YYYY"].map .str

def supportedTimeFormats : List Json := ["HH:mm", "HH:mm:ss", "h:mm A", "h:mm:ss A"].map .str

def supportedNumberFormats : List Json := ["#,##0.00", "#.##0,00", "# ##0,00"].map .str

def supportedCurrencies : List Json := ["USD", "KHR", "THB", "VND", "SGD", "EUR", "GBP", "JPY", "CNY"].map .str

def supportedLocales : List Json :=
  ["en-US", "en-GB", "km-KH", "th-TH", "vi-VN", "fr-FR", "ja-JP", "zh-CN"].map .str

def legacyNumberFormats : Groups :=
  [("1,234.56", .str "#,##0.00"), ("1.234,56", .str "#.##0,00"), ("1 234,56", .str "# ##0,00")]

/-- `0`, `1` or `6`; `False` and `True` equal the first two. -/
def firstDays : List Json := [.num 0, .num 1, .num 6, .bool false, .bool true]

def languageLocale : Json → Json
  | .str "km" => .str "km-KH"
  | .str "zh" => .str "zh-CN"
  | _ => .str "en-US"

def defaultLocalization : Groups :=
  [("defaultLanguage", .str "en"), ("availableLanguages", .list supportedLanguages),
    ("timezone", .str "Asia/Phnom_Penh"), ("dateFormat", .str "DD/MM/YYYY"), ("timeFormat", .str "HH:mm"),
    ("firstDayOfWeek", .num 1), ("numberFormat", .str "#,##0.00"), ("currency", .str "USD"), ("locale", .str "en-US")]

/-- The entries of an object, none of another value. -/
def objectEntries : Option Json → Groups
  | some (.dict entries) => entries
  | _ => []

/-- The value of a key where it is supported, else the default. -/
def supportedOr (source : Groups) (key : String) (supported : List Json) (default : Json) : Json :=
  match source.lookup key with
  | some v => if v ∈ supported then v else default
  | none => default

/-- `_LEGACY_NUMBER_FORMATS.get(value, value)`. -/
def numberFormatOf : Json → Json
  | .str s => (legacyNumberFormats.lookup s).getD (.str s)
  | v => v

/-- `normalize_localization`. -/
def normalizeLocalization (value : Option Json) : Groups :=
  let source := objectEntries value
  let language := supportedOr source "defaultLanguage" supportedLanguages (.str "en")
  let languages := match source.lookup "availableLanguages" with
    | some (.list items) => (items.filter (· ∈ supportedLanguages)).eraseDups
    | _ => []
  let numberFormat := (source.lookup "numberFormat").elim .null numberFormatOf
  [("defaultLanguage", language),
    ("availableLanguages", .list (if languages.isEmpty then supportedLanguages else languages)),
    ("timezone", supportedOr source "timezone" supportedTimezones (.str "Asia/Phnom_Penh")),
    ("dateFormat", supportedOr source "dateFormat" supportedDateFormats (.str "DD/MM/YYYY")),
    ("timeFormat", supportedOr source "timeFormat" supportedTimeFormats (.str "HH:mm")),
    ("firstDayOfWeek", supportedOr source "firstDayOfWeek" firstDays (.num 1)),
    ("numberFormat", if numberFormat ∈ supportedNumberFormats then numberFormat else .str "#,##0.00"),
    ("currency", supportedOr source "currency" supportedCurrencies (.str "USD")),
    ("locale", languageLocale language)]

/-- The checks of `validate_localization_patch`, by key. -/
def localizationChecks : List (String × List Json) :=
  [("defaultLanguage", supportedLanguages), ("timezone", supportedTimezones), ("dateFormat", supportedDateFormats),
    ("timeFormat", supportedTimeFormats),
    ("numberFormat", supportedNumberFormats ++ legacyNumberFormats.map fun e => .str e.1),
    ("currency", supportedCurrencies), ("locale", supportedLocales), ("firstDayOfWeek", firstDays)]

/-- `validate_localization_patch` of an object: nothing when a value is refused. -/
def validateLocalizationPatch (value : Groups) : Option Groups :=
  let languagesOk := match value.lookup "availableLanguages" with
    | some (.list items) => !items.isEmpty && items.all (· ∈ supportedLanguages)
    | some _ => false
    | none => true
  if languagesOk && localizationChecks.all fun check => (value.lookup check.1).all (· ∈ check.2) then
    some (normalizeLocalization (some (Json.deepMerge (.dict defaultLocalization) (.dict value))))
  else none

/-! ## Requests -/

/-- `not str(value or "").strip()`. -/
def isBlank : Json → Bool
  | .null => true
  | .bool b => !b
  | .num q => q == 0
  | .str s => strip s == ""
  | .list items => items.isEmpty
  | .dict entries => entries.isEmpty

/-- The value of a key is dropped where it is blank. -/
def dropBlank (keys : List String) (entries : Groups) : Groups :=
  entries.filter fun e => !(keys.contains e.1 && isBlank e.2)

/-- `_without_blank_secrets` of one group. -/
def withoutBlankSecrets : String × Json → String × Json
  | ("backup", .dict entries) =>
    ("backup", .dict (dropBlank ["serviceAccountJson", "r2SecretAccessKey"]
      (entries.filter fun e => e.1 ≠ "serviceAccountConfigured" ∧ e.1 ≠ "r2SecretAccessKeyConfigured")))
  | ("email", .dict entries) => ("email", .dict (dropBlank ["password"] entries))
  | ("telegram", .dict entries) => ("telegram", .dict (dropBlank ["botToken"] entries))
  | e => e

/-- A group is replaced by another value of it, which may be refused. -/
def replaceGroup (patch : Groups) (group : String) (f : Json → Option Json) : Option Groups :=
  match patch.lookup group with
  | some v => (f v).map fun w => patch.map fun e => if e.1 = group then (group, w) else e
  | none => some patch

/-- `patch["localization"]`: the whole group, with the patch on top of what is stored. -/
def localizedGroup (current : Groups) (v : Json) : Option Json :=
  match v with
  | .dict entries =>
    match Json.deepMerge (.dict (normalizeLocalization (current.lookup "localization"))) (.dict entries) with
    | .dict merged => (validateLocalizationPatch merged).map .dict
    | _ => none
  | _ => none

/-- The patch as it is merged. -/
def cleanedPatch (rules : SettingsRules) (current patch : Groups) : Option Groups := do
  let localized ← replaceGroup patch "localization" (localizedGroup current)
  replaceGroup (localized.map withoutBlankSecrets) "telegram" fun _ =>
    (patch.lookup "telegram").bind fun v => rules.prepareTelegram v ((current.lookup "telegram").getD (.dict []))

/-- A JSON value as a condition. -/
def truthy (v : Option Json) : Bool := v.any fun v => match v with
  | .str s => s ≠ ""
  | v => !isBlank v

def putEntry (entries : Groups) (key : String) (v : Json) : Groups :=
  if (entries.lookup key).isSome then entries.map fun e => if e.1 = key then (key, v) else e else entries ++ [(key, v)]

/-- The marker of a password rollout. -/
def rolloutMarker (rules : SettingsRules) (current patch data : Groups) : Groups :=
  if (patch.lookup "security").isNone then data
  else
    let security := objectEntries (data.lookup "security")
    let previously := truthy ((objectEntries (current.lookup "security")).lookup "requirePasswordChange")
    let now := truthy (security.lookup "requirePasswordChange")
    if now && !previously then
      putEntry data "security" (.dict (putEntry security "requirePasswordChangeSince" (.str rules.now)))
    else if !now && (data.lookup "security").any Json.isDict then
      putEntry data "security" (.dict (security.filter fun e => e.1 != "requirePasswordChangeSince"))
    else data

/-- `normalize_message_language` of the Telegram group. -/
def messageLanguage (data : Groups) : Groups :=
  match data.lookup "telegram" with
  | some (.dict telegram) =>
    match telegram.lookup "messageLanguage" with
    | some v =>
      putEntry data "telegram"
        (.dict (putEntry telegram "messageLanguage" (if v ∈ supportedLanguages then v else .str "en")))
    | none => data
  | _ => data

/-- The configuration that a request writes, from the one it read. -/
def appConfigData (rules : SettingsRules) (current patch : Groups) : Option Groups := do
  let cleaned ← cleanedPatch rules current patch
  match Json.deepMerge (.dict current) (.dict cleaned) with
  | .dict merged =>
    let data := messageLanguage (rolloutMarker rules current patch merged)
    if rules.accepts patch data then some data else none
  | _ => none

/-! ## The table -/

structure SettingsDb where
  groups : Groups
  /-- The patches of the requests that committed. -/
  patches : List Groups

/-- The value of a row after the upserts: the new one where it is not what was loaded. -/
def storedValue (current data : Groups) (group : String) (old : Json) : Json :=
  match data.lookup group with
  | some v => if v.isDict && current.lookup group ≠ some v then v else old
  | none => old

/-- The upserts of `data`, with the rows that were loaded as `current`. A group without a row is inserted. -/
def storedGroups (current groups data : Groups) : Groups :=
  (groups.map fun e => (e.1, storedValue current data e.1 e.2)) ++
    data.filter fun e => e.2.isDict && (groups.lookup e.1).isNone

inductive SettingsStage
  | begins
  /-- After `FOR UPDATE` of the Telegram row, which found it or not. -/
  | reads (locked : Bool)
  | writes (locked : Bool) (current : Groups)

structure SettingsTxn where
  patch : Groups
  stage : SettingsStage

/-- The Telegram row is the only one that is locked. -/
def SettingsTxn.locks (t : SettingsTxn) : List Unit :=
  match t.stage with
  | .reads true | .writes true _ => [()]
  | _ => []

def settingsNext (rules : SettingsRules) (db : SettingsDb) (free : Unit → Bool) (t : SettingsTxn) :
    Transactions.Outcome SettingsDb SettingsTxn Unit :=
  match t.stage with
  | .begins =>
    if (t.patch.lookup "telegram").isSome && (db.groups.lookup "telegram").isSome then
      .whenFree free () (.continues { t with stage := .reads true })
    else .continues { t with stage := .reads false }
  | .reads locked => .continues { t with stage := .writes locked db.groups }
  | .writes _ current =>
    match appConfigData rules current t.patch with
    | some data => .commits ⟨storedGroups current db.groups data, db.patches ++ [t.patch]⟩ none
    | none => .ends

/-- `update_app_config`, the status writes of the backup job included. -/
def settingsProtocol (rules : SettingsRules) : Protocol SettingsDb Groups SettingsTxn Unit Unit where
  start patch := ⟨patch, .begins⟩
  locks := SettingsTxn.locks
  next := settingsNext rules

end LcsSystem
