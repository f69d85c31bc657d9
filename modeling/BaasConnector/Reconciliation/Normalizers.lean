import BaasConnector.Reconciliation.Items
import BaasConnector.Worker.Poll

namespace BaasConnector.Reconciliation.Normalizers

open BaasConnector.Connector.Records BaasConnector.Worker.Poll BaasConnector.Reconciliation.Items

/-- The strong key, the E2EID before the provider's transaction id, each in a
namespace of its own. -/
def strongKey (endToEndId providerTransactionId : Option String) : Option String :=
  match present endToEndId with
  | some e2e => some ("e2e:" ++ e2e)
  | none => (present providerTransactionId).map ("ptx:" ++ ·)

def directionText : TransactionDirection → String
  | .CREDIT => "CREDIT"
  | .DEBIT => "DEBIT"

def typeText : TransactionType → String
  | .PIX_IN => "PIX_IN"
  | .PIX_OUT => "PIX_OUT"
  | .PIX_REFUND_IN => "PIX_REFUND_IN"
  | .PIX_REFUND_OUT => "PIX_REFUND_OUT"
  | .INTERNAL_TRANSFER_IN => "INTERNAL_TRANSFER_IN"
  | .INTERNAL_TRANSFER_OUT => "INTERNAL_TRANSFER_OUT"
  | .FEE => "FEE"
  | .FEE_REVERSAL => "FEE_REVERSAL"
  | .ADJUSTMENT_CREDIT => "ADJUSTMENT_CREDIT"
  | .ADJUSTMENT_DEBIT => "ADJUSTMENT_DEBIT"
  | .BLOCK => "BLOCK"
  | .UNBLOCK => "UNBLOCK"

variable (sha256 : String → String)

def fuzzyKey (accountId : String) (direction : TransactionDirection) (amountCents : Int)
    (effectiveDate : String) : String :=
  sha256 (accountId ++ "|" ++ directionText direction ++ "|" ++ toString amountCents ++ "|" ++ effectiveDate)

/-- A statement entry with what only the reconciliation reads of it. -/
structure DatedEntry extends StatementEntry where
  effectiveDate : String
  type : String
deriving DecidableEq, Repr

/-- A transaction with what only the reconciliation reads of it. -/
structure DatedTransaction extends TransactionRecord where
  effectiveDate : String
  counterpartyTaxIdIndex : Option String
deriving DecidableEq, Repr

/-- The ids of items are minted before the motor runs. -/
def fromStatementEntry (itemId : String) (entry : DatedEntry) (accountId : String) : NormalizedItem :=
  let direction := if entry.direction = .credit then .CREDIT else .DEBIT
  let providerTransactionId := some (entry.providerTransactionId.getD entry.providerEntryId)
  { id := itemId
    side := .PROVIDER
    accountId
    externalId := some entry.providerEntryId
    endToEndId := entry.endToEndId
    postedAt := entry.postedAt
    effectiveDate := entry.effectiveDate
    direction
    amountCents := entry.amountCents
    type := entry.type
    status := none
    counterpartyTaxIdIndex := none
    providerTransactionId
    ledgerTransactionId := none
    matchKeyStrong := strongKey entry.endToEndId providerTransactionId
    matchKeyFuzzy := fuzzyKey sha256 accountId direction entry.amountCents entry.effectiveDate }

def fromTransaction (itemId : String) (transaction : DatedTransaction) : NormalizedItem :=
  { id := itemId
    side := .LOCAL
    accountId := transaction.accountId
    externalId := some transaction.id
    endToEndId := transaction.endToEndId
    postedAt := transaction.settledAt.getD transaction.requestedAt
    effectiveDate := transaction.effectiveDate
    direction := transaction.direction
    amountCents := transaction.amountCents
    type := typeText transaction.type
    status := some transaction.status
    counterpartyTaxIdIndex := transaction.counterpartyTaxIdIndex
    providerTransactionId := transaction.providerTransactionId
    ledgerTransactionId := transaction.ledgerPostedTransactionId
    matchKeyStrong := strongKey transaction.endToEndId transaction.providerTransactionId
    matchKeyFuzzy := fuzzyKey sha256 transaction.accountId transaction.direction transaction.amountCents
      transaction.effectiveDate }

variable {e2e ptx : Option String} {k : String}

theorem strongKey_e2e (h : present e2e = some k) : strongKey e2e ptx = some ("e2e:" ++ k) := by
  rw [strongKey, h]

theorem strongKey_ptx (h : present e2e = none) : strongKey e2e ptx = (present ptx).map ("ptx:" ++ ·) := by
  rw [strongKey, h]

theorem e2e_isPrefixOf (k : String) : "e2e:".toList.isPrefixOf ("e2e:" ++ k).toList = true := by
  rw [String.toList_append]
  exact List.isPrefixOf_iff_prefix.mpr (List.prefix_append _ _)

theorem ptx_isPrefixOf (k : String) : "ptx:".toList.isPrefixOf ("ptx:" ++ k).toList = true := by
  rw [String.toList_append]
  exact List.isPrefixOf_iff_prefix.mpr (List.prefix_append _ _)

theorem e2e_injective {k k' : String} (h : "e2e:" ++ k = "e2e:" ++ k') : k = k' :=
  String.append_right_inj _ |>.mp h

theorem ptx_injective {k k' : String} (h : "ptx:" ++ k = "ptx:" ++ k') : k = k' :=
  String.append_right_inj _ |>.mp h

/-- The two namespaces do not meet. -/
theorem e2e_ne_ptx (k k' : String) : "e2e:" ++ k ≠ "ptx:" ++ k' := by
  intro h
  have hl := congrArg String.toList h
  rw [String.toList_append, String.toList_append] at hl
  have hhead : some 'e' = some 'p' := congrArg List.head? hl
  cases hhead

end BaasConnector.Reconciliation.Normalizers
