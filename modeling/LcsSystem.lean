import LcsSystem.Lib.Decimal
import LcsSystem.Lib.Context
import LcsSystem.Lib.Double
import LcsSystem.Lib.Selection
import LcsSystem.Lib.Table
import LcsSystem.Lib.Transition
import LcsSystem.Lib.Transactions
import LcsSystem.Lib.Calendar
import LcsSystem.Lib.Checks
import LcsSystem.Core.Validation
import LcsSystem.Core.Fx
import LcsSystem.Finance.Models
import LcsSystem.Finance.Periods
import LcsSystem.Finance.Sequences
import LcsSystem.Finance.NumberRuns
import LcsSystem.Finance.PostingRules
import LcsSystem.Finance.RuleResolution
import LcsSystem.Finance.Posting
import LcsSystem.MasterData.CurrencyRates
import LcsSystem.Finance.Documents
import LcsSystem.Finance.RuleRuns
import LcsSystem.Finance.Invoices
import LcsSystem.Finance.SavedDocuments
import LcsSystem.Finance.DocumentConversion
import LcsSystem.Finance.RateProvenance
import LcsSystem.Finance.JournalTables
import LcsSystem.Finance.Allocations
import LcsSystem.Finance.AllocationWrites
import LcsSystem.Finance.DocumentPosting
import LcsSystem.Finance.PostingBalance
import LcsSystem.Finance.PostedDocuments
import LcsSystem.Finance.ManualJournals
import LcsSystem.Finance.JournalGuards
import LcsSystem.Finance.Accounts
import LcsSystem.Finance.PostedAccounts
import LcsSystem.Finance.AccountRuns
import LcsSystem.Finance.Reversals
import LcsSystem.Finance.Settlement
import LcsSystem.Finance.SettlementLocks
import LcsSystem.Finance.SettledAmounts
import LcsSystem.Finance.SettlementRuns
import LcsSystem.Finance.IdempotencyKeys
import LcsSystem.Finance.PartialUpdates
import LcsSystem.Finance.InvoiceWrites
import LcsSystem.Finance.InvoiceAgreement
import LcsSystem.Operations.Charges
import LcsSystem.Operations.ChargeRuns
import LcsSystem.Operations.FrozenCharges
import LcsSystem.Operations.ReversedInvoices
import LcsSystem.Operations.InvoiceRuns
import LcsSystem.Operations.LineReadings
import LcsSystem.Operations.TaxRoundTrip
import LcsSystem.Quotations.Models
import LcsSystem.MasterData.References
import LcsSystem.MasterData.RouteStops
import LcsSystem.MasterData.RouteReadings
import LcsSystem.MasterData.RouteWrites
import LcsSystem.MasterData.RouteRows
import LcsSystem.MasterData.InactiveRoles
import LcsSystem.Quotations.RevisionChildren
import LcsSystem.Quotations.Revisions
import LcsSystem.Quotations.Conversion
import LcsSystem.Quotations.FrozenRevisions
import LcsSystem.Quotations.Lifecycle
import LcsSystem.Quotations.LifecycleSteps
import LcsSystem.Quotations.RevisionNumbers
import LcsSystem.Quotations.Writes
import LcsSystem.Quotations.RevisionLines
import LcsSystem.Quotations.ShownStatus
import LcsSystem.Quotations.HeaderStatus
import LcsSystem.Quotations.ConversionRuns
import LcsSystem.Quotations.OrderCopies
import LcsSystem.Quotations.RollUp
import LcsSystem.Quotations.CommercialRuns
import LcsSystem.Quotations.RouteHistory
import LcsSystem.Quotations.Requotation
import LcsSystem.Quotations.RequotedLines
import LcsSystem.Quotations.RequotationRuns
import LcsSystem.Lib.Json
import LcsSystem.MasterData.ComponentTables
import LcsSystem.MasterData.Snapshots
import LcsSystem.MasterData.ConfigVersions
import LcsSystem.MasterData.VersionRuns
import LcsSystem.MasterData.PublishRuns
import LcsSystem.Operations.ComponentValues
import LcsSystem.MasterData.ComponentLayouts
import LcsSystem.Operations.ComponentRows
import LcsSystem.Operations.LayoutRuns
import LcsSystem.MasterData.ComponentAttributes
import LcsSystem.Operations.AttributeRuns
import LcsSystem.Lib.Grants
import LcsSystem.Core.Permissions
import LcsSystem.Core.PermissionGraph
import LcsSystem.Core.RoleClosure
import LcsSystem.Core.RoleSelection
import LcsSystem.Auth.Models
import LcsSystem.Auth.Roles
import LcsSystem.Auth.Users
import LcsSystem.Auth.Delegation
import LcsSystem.Auth.Revocation
import LcsSystem.Auth.PolicyTable
import LcsSystem.Auth.PolicyViews
import LcsSystem.Auth.PolicyCopies
import LcsSystem.Core.Cache
import LcsSystem.MasterData.CachedReads
import LcsSystem.MasterData.PageKeys
import LcsSystem.Settings.SettingRuns
import LcsSystem.MasterData.DocumentTypeRuns
import LcsSystem.Reports.BalanceControl
import LcsSystem.Reports.LedgerPages
import LcsSystem.Reports.StatementRuns
import LcsSystem.Frontend.RenewalRuns
import LcsSystem.Telegram.OutboxRuns
import LcsSystem.Telegram.LinkageRuns
import LcsSystem.Telegram.MonitorRuns
import LcsSystem.Backup.SchedulerRuns
import LcsSystem.Backup.ExportRuns
import LcsSystem.ExcelIo.Workbooks
import LcsSystem.ExcelIo.ImportRuns
import LcsSystem.ExcelIo.PreviewRuns
import LcsSystem.Finance.MirroredRules
import LcsSystem.Finance.ShownAccounts
import LcsSystem.Finance.PeriodRuns
import LcsSystem.Operations.RowExactness
import LcsSystem.Archive.LifecycleRuns
import LcsSystem.Quotations.LineColumns
import LcsSystem.MasterData.StatusPolicies
import LcsSystem.MasterData.StatusChanges
import LcsSystem.MasterData.RateStore
import LcsSystem.Telegram.Incidents
import LcsSystem.Reports.Dashboard
import LcsSystem.Operations.ContainerUpdates
import LcsSystem.Operations.ChargeContainers
import LcsSystem.Auth.LockoutRuns
import LcsSystem.Auth.SessionRuns
import LcsSystem.Auth.AdminRuns
import LcsSystem.Auth.PasswordChangeRuns
import LcsSystem.Archive.BulkDeleteRuns
import LcsSystem.Archive.RestoreChecks
import LcsSystem.MasterData.GenericRecords
import LcsSystem.Frontend.SavedRoles
import LcsSystem.Frontend.PasswordAgreement
import LcsSystem.MasterData.PagePartition
import LcsSystem.Core.PrecisionChecks
import LcsSystem.MasterData.PatternScan
import LcsSystem.MasterData.AssetRuns
import LcsSystem.Operations.FormRuns
import LcsSystem.MasterData.SnapshotComparison
import LcsSystem.Backup.RestoreRuns
import LcsSystem.Operations.ResavedRows
import LcsSystem.Operations.OrderStepRuns
