import LcsSystem.Frontend.Texts
import LcsSystem.Lib.Entries

/-!
# The roles and permissions matrix

`src/frontend/app/utils/role/permissions.ts`: the rows of the matrix, made from the codes that a role stores, and the
codes that a save sends.

| here             | there                                                                            |
|------------------|------------------------------------------------------------------------------------|
| `Collation`      | the order of `localeCompare`                                                         |
| `Page`           | a `RoleDocumentTypeDefinition` without its labels and group                          |
| `asSet`, `addTo` | `new Set(…)` and `Set.add`, in the order of insertion                                |
| `lastOf`         | what a `Map` made of entries has under a key: the last one                           |
| `codeParts`      | the texts before and after the last dot, where one stands after the first character  |

Texts compare by code point where `sort` has no comparator. Levels are whole numbers.
-/

namespace LcsSystem.RoleMatrix
open Entries

structure Collation where
  /-- `left.localeCompare(right) <= 0`. -/
  le : String → String → Bool
  trans : ∀ a b c, le a b = true → le b c = true → le a c = true
  total : ∀ a b, le a b = true ∨ le b a = true

structure Page where
  value : String
  permissionPrefix : String
  actions : List String

/-- `AppRolePermissionRow`. -/
structure PermissionRow where
  id : String
  documentType : String
  onlyIfCreator : Bool := false
  level : ℤ := 0
  actions : List String
  deriving DecidableEq

/-! ## The catalog -/

def rolePermissionActions : List String :=
  ["view", "create", "update", "delete", "submit", "export", "summary", "quotation", "re_quotation", "restore"]

def crudActions : List String := ["view", "create", "update", "delete", "export"]
def readActions : List String := ["view", "export"]
def documentActions : List String := ["view", "create", "update", "delete", "submit", "export"]
def quotationActions : List String :=
  ["view", "create", "update", "delete", "submit", "re_quotation", "quotation", "export"]
def settingsActions : List String := ["view", "update"]
def backupActions : List String := ["view", "create", "update"]

def roleDocumentTypes : List Page :=
  [⟨"dashboard", "dashboard", ["view", "export", "summary"]⟩,
    ⟨"sales_quotations", "sales.quotations", quotationActions⟩,
    ⟨"operations_service_orders", "operations.service_orders", documentActions⟩,
    ⟨"reports_service_order_register", "reports.service_order_register", readActions⟩,
    ⟨"reports_service_order_status", "reports.service_order_status", readActions⟩,
    ⟨"reports_service_order_containers", "reports.service_order_containers", readActions⟩,
    ⟨"reports_service_order_profitability", "reports.service_order_profitability", readActions⟩,
    ⟨"finance_service_charges", "finance.service_charges", documentActions⟩,
    ⟨"finance_financial_documents", "finance.financial_documents", documentActions⟩,
    ⟨"finance_chart_of_accounts", "finance.chart_of_accounts", crudActions⟩,
    ⟨"finance_financial_accounts", "finance.financial_accounts", crudActions⟩,
    ⟨"finance_journal_entries", "finance.journal_entries", crudActions⟩,
    ⟨"finance_accounting_periods", "finance.accounting_periods", ["view", "update", "export"]⟩,
    ⟨"finance_posting_rules", "finance.posting_rules", crudActions⟩,
    ⟨"reports_revenue_expense", "reports.revenue_expense", readActions⟩,
    ⟨"reports_accounts_receivable", "reports.accounts_receivable", readActions⟩,
    ⟨"reports_accounts_payable", "reports.accounts_payable", readActions⟩,
    ⟨"reports_general_ledger", "reports.general_ledger", readActions⟩,
    ⟨"reports_trial_balance", "reports.trial_balance", readActions⟩,
    ⟨"reports_profit_loss", "reports.profit_loss", readActions⟩,
    ⟨"reports_balance_sheet", "reports.balance_sheet", readActions⟩,
    ⟨"reports_cash_flow", "reports.cash_flow", readActions⟩,
    ⟨"master_business_parties", "master.business_parties", crudActions⟩,
    ⟨"master_party_roles", "master.party_roles", crudActions⟩,
    ⟨"master_place_roles", "master.place_roles", crudActions⟩,
    ⟨"master_trade_directions", "master.trade_directions", crudActions⟩,
    ⟨"master_container_types", "master.container_types", crudActions⟩,
    ⟨"master_transport_types", "master.transport_types", crudActions⟩,
    ⟨"master_transport_assets", "master.transport_assets", crudActions⟩,
    ⟨"master_fee_types", "master.fee_types", crudActions⟩, ⟨"master_currencies", "master.currencies", crudActions⟩,
    ⟨"configuration", "configuration", crudActions⟩,
    ⟨"admin_document_sequences", "admin.document_sequences", crudActions⟩,
    ⟨"admin_users", "admin.users", crudActions⟩, ⟨"admin_roles", "admin.roles", crudActions⟩,
    ⟨"admin_audit_logs", "admin.audit_logs", readActions⟩,
    ⟨"admin_archive", "admin.archive", ["view", "export", "restore"]⟩,
    ⟨"settings_app_config", "settings.app_config", settingsActions⟩,
    ⟨"settings_backup", "settings.backup", backupActions⟩]

def pagesOf (catalog : Option (List Page)) : List Page :=
  match catalog with
  | some (page :: pages) => page :: pages
  | _ => roleDocumentTypes

/-! ## Sets of actions -/

def asSet (xs : List String) : List String := xs.eraseDups

def addTo (xs : List String) (x : String) : List String := if x ∈ xs then xs else xs ++ [x]

/-- `Number.MAX_SAFE_INTEGER`. -/
def maxSafeInteger : ℕ := 9007199254740991

/-- `ACTION_ORDER`, and what stands in for an action without a place in it. -/
def actionIndex (action : String) : ℕ :=
  if action ∈ rolePermissionActions then rolePermissionActions.idxOf action else maxSafeInteger

/-- The comparator of `sortActions` is not positive. -/
def actionLe (collation : Collation) (left right : String) : Prop :=
  actionIndex left < actionIndex right ∨ actionIndex left = actionIndex right ∧ collation.le left right = true

instance (collation : Collation) : DecidableRel (actionLe collation) :=
  fun left right => inferInstanceAs (Decidable (actionIndex left < actionIndex right ∨ _ ∧ _))

section
variable (collation : Collation)

def sortActions (actions : List String) : List String := (asSet actions).insertionSort (actionLe collation)

def normalizePermissionActions (actions : List String) : List String :=
  let values := asSet (actions.filter fun action => action != "")
  sortActions collation (if values.any fun action => action != "view" then addTo values "view" else values)

/-! ## Rows -/

/-- The last of those that the key selects. -/
def lastOf {α : Type} (key : α → String) (xs : List α) (k : String) : Option α := (xs.filter fun x => key x == k).getLast?

/-- The row of one page. -/
def normalisedRow (rows : List PermissionRow) (page : Page) : PermissionRow :=
  let existing := lastOf PermissionRow.documentType rows page.value
  let actions := normalizePermissionActions collation ((existing.map PermissionRow.actions).getD [])
  { id := (existing.map PermissionRow.id).elim ("perm_" ++ page.value) fun id => if id = "" then "perm_" ++ page.value else id
    documentType := page.value
    onlyIfCreator := (existing.map PermissionRow.onlyIfCreator).getD false
    level := min 9 (max 0 ((existing.map PermissionRow.level).getD 0))
    actions := actions.filter fun action => page.actions.contains action }

def normaliseRows (rows : List PermissionRow) (pages : List Page) : List PermissionRow :=
  pages.map (normalisedRow collation rows)

def normalizePermissionRows (rows : List PermissionRow) (includeEmpty : Bool) (catalog : Option (List Page)) :
    List PermissionRow :=
  let normalized := normaliseRows collation rows (pagesOf catalog)
  if includeEmpty then normalized else normalized.filter fun row => !row.actions.isEmpty

/-! ## Codes -/

def permissionCode (permissionPrefix action : String) : String := permissionPrefix ++ "." ++ action

def codeParts (code : String) : Option (String × String) :=
  let chars := code.toList.reverse
  let front := ((chars.dropWhile fun c => c != '.').drop 1).reverse
  if front.isEmpty then none else some (String.ofList front, String.ofList (chars.takeWhile fun c => c != '.').reverse)

abbrev Granted := List (String × List String)

/-- One turn of the loop over the codes. -/
def grantCode (pages : List Page) (granted : Granted) (code : String) : Granted :=
  if code = "*" then pages.foldl (fun granted page => overlay granted [(page.value, asSet page.actions)]) granted
  else
    match codeParts code with
    | none => granted
    | some (before, action) =>
      match lastOf Page.permissionPrefix pages before with
      | none => granted
      | some page =>
        if page.actions.contains action then
          overlay granted [(page.value, addTo ((granted.lookup page.value).getD []) action)]
        else granted

def permissionRowsFromFlatKeys (codes : List String) (catalog : Option (List Page)) : List PermissionRow :=
  let pages := pagesOf catalog
  let granted := codes.foldl (grantCode pages) []
  normaliseRows collation
    (granted.map fun e => { id := "perm_" ++ e.1, documentType := e.1, actions := e.2 }) pages

def setPermissionAction (row : PermissionRow) (action : String) (enabled : Bool) : PermissionRow :=
  let actions := normalizePermissionActions collation row.actions
  let chosen :=
    if enabled then addTo (addTo actions action) "view"
    else if action = "view" then []
    else actions.filter fun other => other != action
  { row with actions := sortActions collation chosen }

/-- One turn of the loop over the rows. -/
def rowCodes (pages : List Page) (row : PermissionRow) : List String :=
  match (lastOf Page.value pages row.documentType).map Page.permissionPrefix with
  | none | some "" => []
  | some permissionPrefix => row.actions.map (permissionCode permissionPrefix)

def permissionRowsToFlatKeys (rows : List PermissionRow) (catalog : Option (List Page)) : List String :=
  let pages := pagesOf catalog
  (asSet ((normaliseRows collation rows pages).flatMap (rowCodes pages))).insertionSort (· ≤ ·)

def pagePermissionCodes (catalog : Option (List Page)) : List String :=
  asSet ((pagesOf catalog).flatMap fun page => page.actions.map (permissionCode page.permissionPrefix))

def extraPermissionCodes (codes : List String) (catalog : Option (List Page)) : List String :=
  let pages := pagePermissionCodes catalog
  (asSet ((codes.map Frontend.trim).filter fun code => code != "" && code != "*" && !pages.contains code)).insertionSort (· ≤ ·)

/-- The codes of a role that was opened, as a save sends them. -/
def savedPermissions (codes : List String) (catalog : Option (List Page)) : List String :=
  let keys := permissionRowsToFlatKeys collation (permissionRowsFromFlatKeys collation codes catalog) catalog
  (asSet (keys ++ extraPermissionCodes codes catalog)).insertionSort (· ≤ ·)

end
end LcsSystem.RoleMatrix
