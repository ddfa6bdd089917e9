import LcsSystem.Core.Validation
import LcsSystem.Lib.Grants

/-!
# Permission catalog and the codes of a role

`src/backend/app/core/permissions.py`. A code is `<resource>.<action>`, split at its last dot as the policy store
splits it; other text is a code that the catalog does not know. Sets of codes are `Finset`s, the tables are read by
resource. Labels, groups and the roles that are seeded are left out.
-/

namespace LcsSystem
open Grants

/-! ## Codes -/

inductive Resource
  | user | role | quotation | serviceOrder | serviceOrderConfig | configuration | serviceCharge | financialDocument
  | journalEntry | accountingPeriod | chartOfAccounts | financialAccount | postingRule | customsCredential
  | attachment | auditLog | archive | report | dashboard | documentSequence | masterReference | settings | backup
  | salesQuotations | operationsServiceOrders | reportsServiceOrderRegister | reportsServiceOrderStatus
  | reportsServiceOrderContainers | reportsServiceOrderProfitability | financeServiceCharges
  | financeFinancialDocuments | financeChartOfAccounts | financeFinancialAccounts | financeJournalEntries
  | financeAccountingPeriods | financePostingRules | reportsRevenueExpense | reportsAccountsReceivable
  | reportsAccountsPayable | reportsGeneralLedger | reportsTrialBalance | reportsProfitLoss | reportsBalanceSheet
  | reportsCashFlow | masterBusinessParties | masterPartyRoles | masterPlaceRoles | masterTradeDirections
  | masterContainerTypes | masterTransportTypes | masterTransportAssets | masterFeeTypes | masterCurrencies
  | adminDocumentSequences | adminUsers | adminRoles | adminAuditLogs | adminArchive | settingsAppConfig
  | settingsBackup | financeAccounting | operationsReports | financeReports | salesCompanies | operationsJobs
  | operationsShipments | operationsCustoms | operationsDocuments | operationsDeliveries | financeDebitNotes
  | financeCustomerPayments | financeJobCharges | financeSupplierCosts | financeSupplierPayments | reports
  | financeAccountsReceivable | financeAccountsPayable | financeJobProfitability | admin
  deriving DecidableEq

inductive PermissionAction
  | read | manage | create | updateDraft | send | accept | convert | update | delete | submit | revise | complete
  | view | publish | activate | rollback | compare | issue | convertToInvoice | post | reverse | allocate | close
  | retrieve | upload | restore | hardDelete | exports | summary | reQuotation | quotation | edit | userManage
  | roleManage | configure
  deriving DecidableEq

inductive PermissionCode
  | of (resource : Resource) (action : PermissionAction)
  /-- `*`. -/
  | wildcard
  | other (text : String)
  deriving DecidableEq

def Resource.text : Resource → String
  | .user => "user" | .role => "role" | .quotation => "quotation" | .serviceOrder => "service_order"
  | .serviceOrderConfig => "service_order_config" | .configuration => "configuration"
  | .serviceCharge => "service_charge" | .financialDocument => "financial_document"
  | .journalEntry => "journal_entry" | .accountingPeriod => "accounting_period"
  | .chartOfAccounts => "chart_of_accounts" | .financialAccount => "financial_account"
  | .postingRule => "posting_rule" | .customsCredential => "customs_credential" | .attachment => "attachment"
  | .auditLog => "audit_log" | .archive => "archive" | .report => "report" | .dashboard => "dashboard"
  | .documentSequence => "document_sequence" | .masterReference => "master.reference" | .settings => "settings"
  | .backup => "backup" | .salesQuotations => "sales.quotations"
  | .operationsServiceOrders => "operations.service_orders"
  | .reportsServiceOrderRegister => "reports.service_order_register"
  | .reportsServiceOrderStatus => "reports.service_order_status"
  | .reportsServiceOrderContainers => "reports.service_order_containers"
  | .reportsServiceOrderProfitability => "reports.service_order_profitability"
  | .financeServiceCharges => "finance.service_charges" | .financeFinancialDocuments => "finance.financial_documents"
  | .financeChartOfAccounts => "finance.chart_of_accounts"
  | .financeFinancialAccounts => "finance.financial_accounts" | .financeJournalEntries => "finance.journal_entries"
  | .financeAccountingPeriods => "finance.accounting_periods" | .financePostingRules => "finance.posting_rules"
  | .reportsRevenueExpense => "reports.revenue_expense" | .reportsAccountsReceivable => "reports.accounts_receivable"
  | .reportsAccountsPayable => "reports.accounts_payable" | .reportsGeneralLedger => "reports.general_ledger"
  | .reportsTrialBalance => "reports.trial_balance" | .reportsProfitLoss => "reports.profit_loss"
  | .reportsBalanceSheet => "reports.balance_sheet" | .reportsCashFlow => "reports.cash_flow"
  | .masterBusinessParties => "master.business_parties" | .masterPartyRoles => "master.party_roles"
  | .masterPlaceRoles => "master.place_roles" | .masterTradeDirections => "master.trade_directions"
  | .masterContainerTypes => "master.container_types" | .masterTransportTypes => "master.transport_types"
  | .masterTransportAssets => "master.transport_assets" | .masterFeeTypes => "master.fee_types"
  | .masterCurrencies => "master.currencies" | .adminDocumentSequences => "admin.document_sequences"
  | .adminUsers => "admin.users" | .adminRoles => "admin.roles" | .adminAuditLogs => "admin.audit_logs"
  | .adminArchive => "admin.archive" | .settingsAppConfig => "settings.app_config"
  | .settingsBackup => "settings.backup" | .financeAccounting => "finance.accounting"
  | .operationsReports => "operations.reports" | .financeReports => "finance.reports"
  | .salesCompanies => "sales.companies" | .operationsJobs => "operations.jobs"
  | .operationsShipments => "operations.shipments" | .operationsCustoms => "operations.customs"
  | .operationsDocuments => "operations.documents" | .operationsDeliveries => "operations.deliveries"
  | .financeDebitNotes => "finance.debit_notes" | .financeCustomerPayments => "finance.customer_payments"
  | .financeJobCharges => "finance.job_charges" | .financeSupplierCosts => "finance.supplier_costs"
  | .financeSupplierPayments => "finance.supplier_payments" | .reports => "reports"
  | .financeAccountsReceivable => "finance.accounts_receivable"
  | .financeAccountsPayable => "finance.accounts_payable" | .financeJobProfitability => "finance.job_profitability"
  | .admin => "admin"

def PermissionAction.text : PermissionAction → String
  | .read => "read" | .manage => "manage" | .create => "create" | .updateDraft => "update_draft" | .send => "send"
  | .accept => "accept" | .convert => "convert" | .update => "update" | .delete => "delete" | .submit => "submit"
  | .revise => "revise" | .complete => "complete" | .view => "view" | .publish => "publish" | .activate => "activate"
  | .rollback => "rollback" | .compare => "compare" | .issue => "issue" | .convertToInvoice => "convert_to_invoice"
  | .post => "post" | .reverse => "reverse" | .allocate => "allocate" | .close => "close" | .retrieve => "retrieve"
  | .upload => "upload" | .restore => "restore" | .hardDelete => "hard_delete" | .exports => "export"
  | .summary => "summary" | .reQuotation => "re_quotation" | .quotation => "quotation" | .edit => "edit"
  | .userManage => "user_manage" | .roleManage => "role_manage" | .configure => "configure"

def PermissionCode.text : PermissionCode → String
  | .of resource action => resource.text ++ "." ++ action.text
  | .wildcard => "*"
  | .other text => text

/-- `not str(code).strip()`. -/
def PermissionCode.isBlank : PermissionCode → Bool
  | .other text => strip text == ""
  | _ => false

/-! ## Catalog -/

/-- `SOURCE_PERMISSIONS`: the actions of a resource that a guard checks. -/
def sourceActions : Resource → List PermissionAction
  | .user | .role | .backup => [.read, .manage]
  | .quotation => [.read, .create, .updateDraft, .send, .accept, .convert, .update, .delete, .submit, .revise]
  | .serviceOrder => [.read, .create, .update, .complete, .delete, .submit]
  | .serviceOrderConfig => [.view, .create, .update, .delete, .publish]
  | .configuration => [.read, .manage, .publish, .activate, .rollback, .compare]
  | .serviceCharge => [.read, .create, .issue, .convertToInvoice, .update, .delete, .submit]
  | .financialDocument => [.read, .create, .updateDraft, .post, .reverse, .allocate, .update, .delete, .submit]
  | .journalEntry => [.read, .create, .post, .update, .delete]
  | .accountingPeriod => [.read, .close, .update]
  | .chartOfAccounts => [.manage, .read, .create, .update, .delete]
  | .financialAccount | .documentSequence => [.read, .create, .update, .delete]
  | .postingRule => [.read, .manage, .create, .update, .delete]
  | .customsCredential => [.retrieve]
  | .attachment => [.read, .upload, .delete]
  | .auditLog => [.read]
  | .archive => [.view, .restore, .hardDelete]
  | .report => [.read, .exports]
  | .dashboard => [.summary]
  | .masterReference => [.view, .manage]
  | .settings => [.manage]
  | _ => []

def crudActions : List PermissionAction := [.view, .create, .update, .delete, .exports]
def readActions : List PermissionAction := [.view, .exports]
def documentActions : List PermissionAction := [.view, .create, .update, .delete, .submit, .exports]
def quotationActions : List PermissionAction :=
  [.view, .create, .update, .delete, .submit, .reQuotation, .quotation, .exports]

/-- `MATRIX_PAGES`: the actions of a screen of the role matrix. -/
def matrixActions : Resource → List PermissionAction
  | .dashboard => [.view, .exports, .summary]
  | .salesQuotations => quotationActions
  | .operationsServiceOrders | .financeServiceCharges | .financeFinancialDocuments => documentActions
  | .reportsServiceOrderRegister | .reportsServiceOrderStatus | .reportsServiceOrderContainers
  | .reportsServiceOrderProfitability | .reportsRevenueExpense | .reportsAccountsReceivable | .reportsAccountsPayable
  | .reportsGeneralLedger | .reportsTrialBalance | .reportsProfitLoss | .reportsBalanceSheet | .reportsCashFlow
  | .adminAuditLogs => readActions
  | .financeChartOfAccounts | .financeFinancialAccounts | .financeJournalEntries | .financePostingRules
  | .masterBusinessParties | .masterPartyRoles | .masterPlaceRoles | .masterTradeDirections | .masterContainerTypes
  | .masterTransportTypes | .masterTransportAssets | .masterFeeTypes | .masterCurrencies | .configuration
  | .adminDocumentSequences | .adminUsers | .adminRoles => crudActions
  | .financeAccountingPeriods => [.view, .update, .exports]
  | .adminArchive => [.view, .exports, .restore]
  | .settingsAppConfig => [.view, .update]
  | .settingsBackup => [.view, .create, .update]
  | _ => []

/-- `LEGACY_PAGE_PERMISSIONS`. -/
def legacyActions : Resource → List PermissionAction
  | .salesQuotations | .operationsServiceOrders | .financeServiceCharges | .financeFinancialDocuments
  | .financePostingRules | .configuration | .adminDocumentSequences | .adminUsers | .adminRoles | .settingsAppConfig
  | .settingsBackup => [.edit]
  | .financeAccounting | .masterReference => [.view, .create, .edit, .delete, .exports]
  | .operationsReports | .financeReports => [.view, .exports]
  | .adminArchive => [.edit, .delete]
  | _ => []

/-- `NAVIGATION_PAGE_PERMISSIONS`. -/
def navigationActions : Resource → List PermissionAction
  | .salesCompanies | .operationsJobs | .operationsShipments | .operationsCustoms | .operationsDocuments
  | .operationsDeliveries | .financeDebitNotes | .financeCustomerPayments | .financeJobCharges
  | .financeSupplierCosts | .financeSupplierPayments | .reports | .financeAccountsReceivable
  | .financeAccountsPayable | .financeJobProfitability => [.view]
  | .settings => [.manage]
  | .admin => [.userManage, .roleManage]
  | .configuration => [.configure]
  | _ => []

/-- A code of `PAGE_PERMISSIONS`, that the matrix shows. -/
def PermissionCode.isMatrix : PermissionCode → Bool
  | .of resource action => (matrixActions resource).contains action
  | _ => false

/-- A code of `PAGE_PERMISSION_CODES`. -/
def PermissionCode.isPage : PermissionCode → Bool
  | .of resource action => (matrixActions resource).contains action || (legacyActions resource).contains action ||
      (navigationActions resource).contains action
  | _ => false

/-- A code of `ALL_PERMISSION_CODES`. -/
def PermissionCode.inCatalog : PermissionCode → Bool
  | .of resource action => (sourceActions resource).contains action || (PermissionCode.of resource action).isPage
  | _ => false

/-! ## Grants -/

/-- `_REPORT_PREFIXES`. -/
def reportPrefixes : List Resource := [
  .reportsServiceOrderRegister, .reportsServiceOrderStatus, .reportsServiceOrderContainers,
  .reportsServiceOrderProfitability, .reportsRevenueExpense, .reportsAccountsReceivable, .reportsAccountsPayable,
  .reportsGeneralLedger, .reportsTrialBalance, .reportsProfitLoss, .reportsBalanceSheet, .reportsCashFlow]

/-- `_MASTER_PREFIXES`. -/
def masterPrefixes : List Resource := [
  .masterBusinessParties, .masterPartyRoles, .masterPlaceRoles, .masterTradeDirections, .masterContainerTypes,
  .masterTransportTypes, .masterTransportAssets, .masterFeeTypes, .masterCurrencies]

def codesFor (resources : List Resource) (action : PermissionAction) : List PermissionCode :=
  resources.map fun resource => .of resource action

def reportRows : List (PermissionAction × List PermissionCode) := [(.view, []), (.exports, [.of .report .exports])]

def masterRows : List (PermissionAction × List PermissionCode) :=
  [(.view, []), (.create, []), (.update, []), (.delete, []), (.exports, [.of .report .exports])]

/-- `PAGE_PERMISSION_GRANTS`: the pages of a resource with the codes that they grant. -/
def pageGrants : Resource → List (PermissionAction × List PermissionCode)
  | .dashboard => [(.view, []), (.exports, [.of .report .exports]), (.summary, [])]
  | .salesQuotations => [
    (.view, [.of .quotation .read]),
    (.create, [.of .quotation .create]),
    (.update, [.of .quotation .update, .of .quotation .updateDraft, .of .quotation .accept, .of .quotation .convert]),
    (.delete, [.of .quotation .delete]),
    (.submit, [.of .quotation .submit, .of .quotation .send]),
    (.reQuotation, [.of .quotation .revise]),
    (.quotation, [.of .quotation .send]),
    (.exports, [.of .report .exports])]
  | .operationsServiceOrders => [
    (.view, [.of .serviceOrder .read]),
    (.create, [.of .serviceOrder .create]),
    (.update, [.of .serviceOrder .update, .of .serviceOrder .complete]),
    (.delete, [.of .serviceOrder .delete]),
    (.submit, [.of .serviceOrder .submit]),
    (.exports, [.of .report .exports])]
  | .financeServiceCharges => [
    (.view, [.of .serviceCharge .read, .of .financialDocument .read]),
    (.create, [.of .serviceCharge .create, .of .financialDocument .create]),
    (.update,
      [.of .serviceCharge .update, .of .serviceCharge .convertToInvoice, .of .financialDocument .update,
       .of .financialDocument .updateDraft, .of .financialDocument .allocate]),
    (.delete, [.of .serviceCharge .delete, .of .financialDocument .delete]),
    (.submit,
      [.of .serviceCharge .submit, .of .serviceCharge .issue, .of .financialDocument .submit,
       .of .financialDocument .post, .of .financialDocument .reverse]),
    (.exports, [.of .report .exports])]
  | .financeFinancialDocuments => [
    (.view, [.of .financialDocument .read]),
    (.create, [.of .financialDocument .create]),
    (.update,
      [.of .financialDocument .update, .of .financialDocument .updateDraft, .of .financialDocument .allocate,
       .of .financialDocument .reverse]),
    (.delete, [.of .financialDocument .delete]),
    (.submit, [.of .financialDocument .submit, .of .financialDocument .post]),
    (.exports, [.of .report .exports])]
  | .financeChartOfAccounts => [
    (.view, [.of .chartOfAccounts .read]),
    (.create, [.of .chartOfAccounts .create, .of .chartOfAccounts .manage]),
    (.update, [.of .chartOfAccounts .update, .of .chartOfAccounts .manage]),
    (.delete, [.of .chartOfAccounts .delete, .of .chartOfAccounts .manage]),
    (.exports, [.of .report .exports])]
  | .financeFinancialAccounts => [
    (.view, [.of .financialAccount .read]),
    (.create, [.of .financialAccount .create]),
    (.update, [.of .financialAccount .update]),
    (.delete, [.of .financialAccount .delete]),
    (.exports, [.of .report .exports])]
  | .financeJournalEntries => [
    (.view, [.of .journalEntry .read]),
    (.create, [.of .journalEntry .create]),
    (.update, [.of .journalEntry .update, .of .journalEntry .post]),
    (.delete, [.of .journalEntry .delete]),
    (.exports, [.of .report .exports])]
  | .financeAccountingPeriods => [
    (.view, [.of .accountingPeriod .read]),
    (.update, [.of .accountingPeriod .update, .of .accountingPeriod .close]),
    (.exports, [.of .report .exports])]
  | .financePostingRules => [
    (.view, [.of .postingRule .read]),
    (.create, [.of .postingRule .create, .of .postingRule .manage]),
    (.update, [.of .postingRule .update, .of .postingRule .manage]),
    (.delete, [.of .postingRule .delete, .of .postingRule .manage]),
    (.exports, [.of .report .exports])]
  | .masterBusinessParties | .masterPlaceRoles | .masterPartyRoles | .masterTradeDirections | .masterContainerTypes
  | .masterTransportTypes | .masterTransportAssets | .masterFeeTypes | .masterCurrencies => masterRows
  | .configuration => [
    (.view, [.of .configuration .read, .of .configuration .compare, .of .serviceOrderConfig .view]),
    (.create, [.of .serviceOrderConfig .create]),
    (.update,
      [.of .configuration .configure, .of .configuration .publish, .of .configuration .activate,
       .of .configuration .rollback, .of .serviceOrderConfig .update, .of .serviceOrderConfig .publish]),
    (.delete, [.of .serviceOrderConfig .delete]),
    (.exports, [.of .report .exports]),
    (.edit,
      [.of .configuration .configure, .of .configuration .publish, .of .configuration .activate,
       .of .configuration .rollback, .of .serviceOrderConfig .create, .of .serviceOrderConfig .update,
       .of .serviceOrderConfig .delete, .of .serviceOrderConfig .publish]),
    (.configure,
      [.of .configuration .read, .of .configuration .compare, .of .configuration .publish,
       .of .configuration .activate, .of .configuration .rollback, .of .serviceOrderConfig .view,
       .of .serviceOrderConfig .update, .of .serviceOrderConfig .publish])]
  | .adminUsers => [
    (.view, [.of .user .read]),
    (.create, [.of .user .manage]),
    (.update, [.of .user .manage]),
    (.delete, [.of .user .manage]),
    (.exports, [.of .report .exports]),
    (.edit, [.of .user .manage])]
  | .adminRoles => [
    (.view, [.of .role .read]),
    (.create, [.of .role .manage]),
    (.update, [.of .role .manage]),
    (.delete, [.of .role .manage]),
    (.exports, [.of .report .exports]),
    (.edit, [.of .role .manage])]
  | .adminDocumentSequences => [
    (.view, [.of .documentSequence .read]),
    (.create, [.of .documentSequence .create]),
    (.update, [.of .documentSequence .update]),
    (.delete, [.of .documentSequence .delete]),
    (.exports, [.of .report .exports]),
    (.edit, [.of .documentSequence .update])]
  | .adminAuditLogs => [(.view, [.of .auditLog .read]), (.exports, [.of .report .exports])]
  | .adminArchive => [
    (.view, [.of .archive .view]),
    (.exports, [.of .report .exports]),
    (.restore, [.of .archive .restore]),
    (.edit, [.of .archive .restore]),
    (.delete, [.of .archive .hardDelete])]
  | .settingsAppConfig => [(.view, []), (.update, []), (.edit, [])]
  | .settingsBackup => [
    (.view, [.of .backup .read]),
    (.create, [.of .backup .manage]),
    (.update, [.of .backup .manage]),
    (.edit, [.of .backup .manage])]
  | .reportsServiceOrderRegister | .reportsServiceOrderStatus | .reportsServiceOrderContainers
  | .reportsServiceOrderProfitability | .reportsRevenueExpense | .reportsAccountsReceivable | .reportsAccountsPayable
  | .reportsGeneralLedger | .reportsTrialBalance | .reportsProfitLoss | .reportsBalanceSheet | .reportsCashFlow =>
    reportRows
  | .masterReference => [
    (.view, .of .masterReference .view :: codesFor masterPrefixes .view),
    (.manage, .of .masterReference .manage ::
      masterPrefixes.flatMap fun p => [.of p .create, .of p .update, .of p .delete])]
  | .operationsReports => [
    (.view, codesFor (reportPrefixes.take 4) .view), (.exports, codesFor (reportPrefixes.take 4) .exports)]
  | .financeReports => [
    (.view, codesFor (reportPrefixes.drop 4) .view), (.exports, codesFor (reportPrefixes.drop 4) .exports)]
  | .financeAccounting => [
    (.view,
      [.of .financeChartOfAccounts .view, .of .financeFinancialAccounts .view, .of .financeJournalEntries .view,
       .of .financeAccountingPeriods .view]),
    (.create,
      [.of .financeChartOfAccounts .create, .of .financeFinancialAccounts .create,
       .of .financeJournalEntries .create]),
    (.edit,
      [.of .financeChartOfAccounts .update, .of .financeFinancialAccounts .update,
       .of .financeJournalEntries .update, .of .financeAccountingPeriods .update]),
    (.delete,
      [.of .financeChartOfAccounts .delete, .of .financeFinancialAccounts .delete,
       .of .financeJournalEntries .delete])]
  | .admin => [
    (.userManage,
      [.of .user .read, .of .user .manage, .of .adminUsers .view, .of .adminUsers .create,
       .of .adminUsers .update, .of .adminUsers .delete, .of .adminUsers .edit]),
    (.roleManage,
      [.of .role .read, .of .role .manage, .of .adminRoles .view, .of .adminRoles .create,
       .of .adminRoles .update, .of .adminRoles .delete, .of .adminRoles .edit])]
  | .settings => [
    (.manage,
      [.of .settingsAppConfig .view, .of .settingsAppConfig .update, .of .settingsAppConfig .edit,
       .of .settingsBackup .view, .of .settingsBackup .create, .of .settingsBackup .update,
       .of .settingsBackup .edit, .of .backup .read, .of .backup .manage])]
  | .reports => [(.view, .of .report .read :: codesFor reportPrefixes .view)]
  | .financeAccountsReceivable => [(.view, [.of .reportsAccountsReceivable .view])]
  | .financeAccountsPayable => [(.view, [.of .reportsAccountsPayable .view])]
  | .financeJobProfitability => [(.view, [.of .reportsServiceOrderProfitability .view])]
  | .salesCompanies | .operationsJobs | .operationsShipments | .operationsCustoms | .operationsDocuments
  | .operationsDeliveries | .financeDebitNotes | .financeCustomerPayments | .financeJobCharges
  | .financeSupplierCosts | .financeSupplierPayments =>
    [(.view, [.of .masterReference .view])]
  | .report => [
    (.read, (codesFor reportPrefixes .view).concat (.of .reports .view)), (.exports, codesFor reportPrefixes .exports)]
  | _ => []

/-- The capability of the Files tab that a document page carries. -/
def fileCapability (resource : Resource) (action : PermissionAction) : List PermissionCode :=
  match resource with
  | .salesQuotations | .operationsServiceOrders | .financeServiceCharges | .financeFinancialDocuments =>
    match action with
    | .view => [.of .attachment .read]
    | .update => [.of .attachment .upload]
    | .delete => [.of .attachment .delete]
    | _ => []
  | _ => []

/-- The resources in the order of their first key in the table. -/
def grantOrder : List Resource := [
  .dashboard, .salesQuotations, .operationsServiceOrders, .financeServiceCharges, .financeFinancialDocuments,
  .financeChartOfAccounts, .financeFinancialAccounts, .financeJournalEntries, .financeAccountingPeriods,
  .financePostingRules, .masterBusinessParties, .masterPlaceRoles, .masterPartyRoles, .masterTradeDirections,
  .masterContainerTypes, .masterTransportTypes, .masterTransportAssets, .masterFeeTypes, .masterCurrencies,
  .configuration, .adminUsers, .adminRoles, .adminDocumentSequences, .adminAuditLogs, .adminArchive,
  .settingsAppConfig, .settingsBackup, .reportsServiceOrderRegister, .reportsServiceOrderStatus,
  .reportsServiceOrderContainers, .reportsServiceOrderProfitability, .reportsRevenueExpense,
  .reportsAccountsReceivable, .reportsAccountsPayable, .reportsGeneralLedger, .reportsTrialBalance,
  .reportsProfitLoss, .reportsBalanceSheet, .reportsCashFlow, .masterReference, .operationsReports, .financeReports,
  .financeAccounting, .admin, .settings, .reports, .financeAccountsReceivable, .financeAccountsPayable,
  .financeJobProfitability, .salesCompanies, .operationsJobs, .operationsShipments, .operationsCustoms,
  .operationsDocuments, .operationsDeliveries, .financeDebitNotes, .financeCustomerPayments, .financeJobCharges,
  .financeSupplierCosts, .financeSupplierPayments, .report]

/-- `PAGE_PERMISSION_GRANTS.get(code, ())`. -/
def grantsOf : PermissionCode → List PermissionCode
  | .of resource action =>
    match (pageGrants resource).lookup action with
    | some codes => codes ++ fileCapability resource action
    | none => []
  | _ => []

/-- The pages of a resource that grant the code. -/
def pagesGrantingIn (code : PermissionCode) (resource : Resource) : List PermissionCode :=
  ((pageGrants resource).filter fun row => (row.2 ++ fileCapability resource row.1).contains code).map fun row =>
    .of resource row.1

/-- `PAGE_CODES_BY_GRANTED.get(code, ())`. -/
def pagesGranting (code : PermissionCode) : List PermissionCode := grantOrder.flatMap (pagesGrantingIn code)

def permissionGraph : Graph PermissionCode := ⟨grantsOf, PermissionCode.isPage, pagesGranting⟩

/-! ## The codes of a role -/

/-- `compile_role_permissions`. -/
def compileRolePermissions (codes : Finset PermissionCode) : Finset PermissionCode :=
  let granted := codes.filter fun code => !code.isBlank
  let declared := granted.biUnion fun code => (grantsOf code).toFinset
  let capabilities := declared ∪ (declared.filter fun code => code.isPage).biUnion fun code => (grantsOf code).toFinset
  let covered := granted ∪ capabilities
  let impliedPages := (covered.filter fun code => !code.isPage).biUnion fun code =>
    ((pagesGranting code).find? fun page => ∀ granted ∈ grantsOf page, granted ∈ covered).toFinset
  covered ∪ impliedPages

/-- The code of a text. -/
def PermissionCode.ofText (text : String) : PermissionCode :=
  let codes := ((List.range 79).map Resource.ofNat).flatMap fun resource =>
    (List.range 35).map fun action => PermissionCode.of resource (PermissionAction.ofNat action)
  ((.wildcard :: codes.filter PermissionCode.inCatalog).find? fun code => code.text == text).getD (.other text)

/-- `str(code).strip()`. -/
def PermissionCode.stripped : PermissionCode → PermissionCode
  | .other text => .ofText (strip text)
  | code => code

/-- `resolve_role_codes`. -/
def resolveRoleCodes (codes : Finset PermissionCode) : Finset PermissionCode :=
  let submitted := (codes.filter fun code => !code.isBlank).image PermissionCode.stripped
  if .wildcard ∈ submitted then {PermissionCode.wildcard}
  else
    let pageCodes := submitted.filter fun code => code.isPage
    let grantedByPages := pageCodes.biUnion fun page => (grantsOf page).toFinset
    let explicit := (submitted \ pageCodes) \ grantedByPages
    compileRolePermissions (pageCodes ∪ explicit)

end LcsSystem
