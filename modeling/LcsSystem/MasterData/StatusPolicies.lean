import LcsSystem.Core.Validation
import LcsSystem.Lib.Entries

/-!
# Status policies

`src/backend/app/modules/master_data/status_policy.py`: for every collection with a lifecycle the statuses, the legal
transitions, who may perform one, and the store that holds the record.

| here                    | there                                                    |
|-------------------------|----------------------------------------------------------|
| `normalizedStatus`       | `_normalize`                                             |
| `toStatus`              | the field `to` of a transition                            |
| `toggleTransitions`     | `_toggle_transitions`                                    |
| `vocabularyTransitions` | `_vocabulary_transitions`                                |
| `policyEntries`         | `_policies`, one entry for each assignment to the dict    |

The frontend's `confirm` is left out.
-/

namespace LcsSystem

inductive TransitionKind
  | status
  | command
  deriving DecidableEq

structure StatusTransition where
  toStatus : String
  action : String
  permissions : List String
  kind : TransitionKind := .status
  reason : Bool := false
  eventType : String := "STATUS_CHANGED"
  deriving DecidableEq

inductive StatusStore
  | reference
  | generic
  | account
  | financialAccount
  | postingRule
  | sequence
  | period
  | order
  | charge
  | document
  | journal
  | quotation
  | user
  | role
  deriving DecidableEq

structure StatusPolicy where
  entityType : String
  store : StatusStore
  statuses : List String
  transitions : List (String × List StatusTransition)
  deriving DecidableEq

def normalizedStatus (value : String) : String := upper (strip value)

namespace StatusPolicy

/-- `transition`. -/
def transition? (policy : StatusPolicy) (fromStatus toStatus : String) : Option StatusTransition :=
  ((policy.transitions.lookup (normalizedStatus fromStatus)).getD []).find? fun item =>
    normalizedStatus item.toStatus == normalizedStatus toStatus

/-- `canonical`. -/
def canonical? (policy : StatusPolicy) (value : String) : Option String :=
  policy.statuses.find? fun status => normalizedStatus status == normalizedStatus value

end StatusPolicy

/-! ## Permissions -/

def referenceWrite : List String := ["master.reference.manage", "configuration.manage"]
def partyRoleWrite : List String := ["master.party_roles.update", "master.reference.manage"]
def assetVocabularyWrite : List String := "master.transport_assets.update" :: referenceWrite
def accountWrite : List String := ["chart_of_accounts.manage"]
def postingRuleWrite : List String := ["posting_rule.manage"]
def sequenceWrite : List String := ["configuration.manage"]
def periodWrite : List String := ["accounting_period.close"]
def orderWrite : List String := ["service_order.update"]
def chargeWrite : List String := ["service_charge.issue"]
def documentPost : List String := ["financial_document.post"]
def documentReverse : List String := ["financial_document.reverse"]
def journalPost : List String := ["journal_entry.post"]
def quotationSubmit : List String := ["quotation.submit"]
def quotationConvert : List String := ["quotation.convert"]
def quotationEdit : List String := ["quotation.update_draft"]
def userWrite : List String := ["user.manage"]
def roleWrite : List String := ["role.manage"]

/-! ## Transitions -/

def toggleTransitions (active inactive : String) (permissions : List String) : List (String × List StatusTransition) :=
  [(normalizedStatus active, [{ toStatus := inactive, action := "deactivate", permissions := permissions }]),
    (normalizedStatus inactive, [{ toStatus := active, action := "activate", permissions := permissions }])]

def vocabularyTransitions (values : List String) (permissions : List String) : List (String × List StatusTransition) :=
  values.map fun value => (normalizedStatus value,
    (values.filter fun other => normalizedStatus other != normalizedStatus value).map fun other =>
      { toStatus := other, action := "mark", permissions := permissions })

def command (target action : String) (permissions : List String) : StatusTransition :=
  { toStatus := target, action := action, permissions := permissions, kind := .command }

def quotationTransitions : List (String × List StatusTransition) :=
  [("DRAFT", [command "SUBMITTED" "submit" quotationSubmit, command "CANCELLED" "cancel" quotationEdit]),
    ("SUBMITTED", [command "CONVERTED" "convert" quotationConvert, command "CANCELLED" "cancel" quotationEdit]),
    ("SENT", [command "CONVERTED" "convert" quotationConvert]),
    ("ACCEPTED", [command "CONVERTED" "convert" quotationConvert])]

def reopenTransition : StatusTransition :=
  { toStatus := "OPEN", action := "reopen", permissions := periodWrite, eventType := "PERIOD_REOPENED" }

def periodTransitions : List (String × List StatusTransition) :=
  [("OPEN", [command "CLOSED" "close" periodWrite]),
    ("REOPENED", [command "CLOSED" "close" periodWrite, reopenTransition]),
    ("CLOSED", [reopenTransition])]

def orderTransitions : List (String × List StatusTransition) :=
  [("ACTIVE", [command "FINISHED" "finish" orderWrite,
      { toStatus := "INACTIVE", action := "deactivate", permissions := orderWrite }]),
    ("INACTIVE", [{ toStatus := "ACTIVE", action := "activate", permissions := orderWrite }]),
    ("FINISHED", [{ toStatus := "ACTIVE", action := "activate", permissions := orderWrite }])]

def financialDocumentTransitions : List (String × List StatusTransition) :=
  [("DRAFT", [command "POSTED" "post" documentPost]),
    ("POSTED", [{ command "REVERSED" "reverse" documentReverse with reason := true }])]

/-- The toggle of users and of roles. -/
def accountHolderTransitions (permissions : List String) (eventType : String) : List (String × List StatusTransition) :=
  [("ACTIVE", [{ toStatus := "INACTIVE", action := "deactivate", permissions := permissions, eventType := eventType }]),
    ("INACTIVE", [{ toStatus := "ACTIVE", action := "activate", permissions := permissions, eventType := eventType }])]

/-! ## The table -/

def activeStatuses : List String := ["ACTIVE", "INACTIVE"]

def assetStatuses : List String := ["ACTIVE", "INACTIVE", "MAINTENANCE"]

def referenceCollections : List String :=
  ["businessParties", "placeRoles", "tradeDirections", "containerTypes", "transportTypes", "transportAssetIdentityTypes",
    "capacityUnits", "feeTypes", "currencies", "documentTypes"]

def genericVocabularies : List (String × List String) :=
  [("companies", ["Active", "Inactive"]),
    ("shipments", ["Scheduled", "Registered", "In Transit", "Arrived", "Completed"]),
    ("customs", ["Preparing", "Submitted", "Processing", "On Hold", "Cleared"]),
    ("documents", ["Required", "Missing", "Uploaded", "Approved"]),
    ("deliveries", ["Scheduled", "Arriving", "Unloading", "Delivered", "POD Received"]),
    ("customerPayments", ["Unpaid", "Partial", "Paid", "Overdue"]),
    ("supplierCosts", ["Unpaid", "Partial", "Paid", "Overdue"]),
    ("supplierPayments", ["Unpaid", "Partial", "Paid", "Overdue"])]

/-- A policy of the shared toggle. -/
def togglePolicy (entityType : String) (store : StatusStore) (permissions : List String) : StatusPolicy :=
  ⟨entityType, store, activeStatuses, toggleTransitions "ACTIVE" "INACTIVE" permissions⟩

/-- A plain pair of active and inactive is a toggle. -/
def genericPolicy (collection : String) (vocabulary : List String) : StatusPolicy :=
  ⟨collection, .generic, vocabulary,
    if (vocabulary.map normalizedStatus).toFinset = {"ACTIVE", "INACTIVE"} then
      toggleTransitions (vocabulary.headD "") (vocabulary.getLastD "") referenceWrite
    else vocabularyTransitions vocabulary referenceWrite⟩

def documentPolicy : StatusPolicy :=
  ⟨"financial_document", .document, ["DRAFT", "POSTED", "REVERSED"], financialDocumentTransitions⟩

def policyEntries : List (String × StatusPolicy) :=
  (referenceCollections.map fun collection => (collection, togglePolicy collection .reference referenceWrite)) ++
  [("transportAssets", ⟨"transportAssets", .reference, assetStatuses, vocabularyTransitions assetStatuses referenceWrite⟩),
    ("partyRoles", togglePolicy "partyRoles" .reference partyRoleWrite)] ++
  (["transportAssetIdentityTypes", "capacityUnits"].map fun collection =>
    (collection, togglePolicy collection .reference assetVocabularyWrite)) ++
  (genericVocabularies.map fun e => (e.1, genericPolicy e.1 e.2)) ++
  [("chartOfAccounts", togglePolicy "chart_of_account" .account accountWrite),
    ("financialAccounts", togglePolicy "financial_account" .financialAccount accountWrite),
    ("postingRules", togglePolicy "posting_rule" .postingRule postingRuleWrite),
    ("documentSequences", togglePolicy "document_sequence" .sequence sequenceWrite),
    ("accountingPeriods", ⟨"accounting_period", .period, ["OPEN", "CLOSED", "REOPENED"], periodTransitions⟩),
    ("jobs", ⟨"service_order", .order, ["ACTIVE", "INACTIVE", "FINISHED"], orderTransitions⟩),
    ("jobCharges", ⟨"service_charge", .charge, ["DRAFT", "ISSUED"], [("DRAFT", [command "ISSUED" "issue" chargeWrite])]⟩)] ++
  (["debitNotes", "customerPayments", "supplierCosts", "supplierPayments"].map fun collection => (collection, documentPolicy)) ++
  [("journals", ⟨"journal_entry", .journal, ["DRAFT", "POSTED"], [("DRAFT", [command "POSTED" "post" journalPost])]⟩),
    ("quotations", ⟨"quotation_revision", .quotation,
      ["DRAFT", "SUBMITTED", "SENT", "ACCEPTED", "REJECTED", "CONVERTED", "SUPERSEDED", "CANCELLED"], quotationTransitions⟩),
    ("users", ⟨"user", .user, activeStatuses, accountHolderTransitions userWrite "USER_UPDATED"⟩),
    ("roles", ⟨"role", .role, activeStatuses, accountHolderTransitions roleWrite "ROLE_UPDATED"⟩)]

/-- `STATUS_POLICIES.get`: a later assignment replaces an earlier one. -/
def statusPolicy? (collection : String) : Option StatusPolicy := policyEntries.reverse.lookup collection

theorem mem_policyEntries {collection : String} {policy : StatusPolicy} (h : statusPolicy? collection = some policy) :
    (collection, policy) ∈ policyEntries := by
  have hmem := Entries.mem_of_lookup h
  exact List.mem_reverse.1 hmem

end LcsSystem
