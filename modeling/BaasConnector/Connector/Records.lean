import BaasConnector.Taxonomy.Errors
import BaasConnector.Taxonomy.Status
import Mathlib.Data.List.TakeDrop
import Mathlib.Data.Option.Basic

namespace BaasConnector.Connector.Columns

/-- What a column of type `VARCHAR(width)` stores of a text that it accepts:
blanks beyond the width are cut off. -/
def varchar (width : Nat) (text : String) : String := String.ofList (text.toList.take width)

/-- Anything but blanks beyond the width is an error. -/
def overflows (width : Nat) (text : String) : Bool := (text.toList.drop width).any (· ≠ ' ')

def nullable (width : Nat) (text : Option String) : Option String := text.map (varchar width)

def fits (column : Nat × Option String) : Bool := column.2.all (·.length ≤ column.1)

def rejected (column : Nat × Option String) : Bool := column.2.any (overflows column.1)

theorem varchar_eq_iff {width : Nat} {text : String} : varchar width text = text ↔ text.length ≤ width := by
  rw [varchar, ← String.toList_inj, String.toList_ofList, List.take_eq_self_iff, String.length_toList]

theorem fits_some {width : Nat} {text : String} :
    fits (width, some text) = true ↔ text.length ≤ width := by
  rw [fits, Option.all_some, decide_eq_true_eq]

theorem nullable_eq_iff {width : Nat} {text : Option String} :
    nullable width text = text ↔ fits (width, text) := by
  cases text with
  | none => simp [nullable, fits]
  | some s => simp [nullable, fits, varchar_eq_iff]

end BaasConnector.Connector.Columns

namespace BaasConnector.Connector.Records

open BaasConnector.Taxonomy.Status BaasConnector.Taxonomy.Errors

inductive IdKind
  | account | transaction | operation | idempotency | ledgerAccount | reconciliationRun
  | reconciliationBreak
deriving DecidableEq, Repr

def IdKind.tag : IdKind → String
  | .account => "acc"
  | .transaction => "txn"
  | .operation => "opr"
  | .idempotency => "idm"
  | .ledgerAccount => "lac"
  | .reconciliationRun => "rec"
  | .reconciliationBreak => "brk"

def idOf (kind : IdKind) (ulid : String) : String := kind.tag ++ "_" ++ ulid

inductive TransactionType
  | PIX_IN | PIX_OUT | PIX_REFUND_IN | PIX_REFUND_OUT | INTERNAL_TRANSFER_IN
  | INTERNAL_TRANSFER_OUT | FEE | FEE_REVERSAL | ADJUSTMENT_CREDIT | ADJUSTMENT_DEBIT | BLOCK
  | UNBLOCK
deriving DecidableEq, Repr

inductive TransactionDirection
  | CREDIT | DEBIT
deriving DecidableEq, Repr

structure AccountRecord where
  id : String
  provider : String
  providerConnectionId : String
  providerAccountId : Option String
  externalId : Option String
  status : AccountStatus
  lastEventAt : Option Int
  ledgerAvailableAccountId : Option String
deriving DecidableEq, Repr

/-- What the services read of a transaction; the end-to-end id is that of its Pix
details. -/
structure TransactionRecord where
  id : String
  accountId : String
  parentTransactionId : Option String
  type : TransactionType
  direction : TransactionDirection
  status : TransactionStatus
  lastEventAt : Option Int
  amountCents : Int
  refundedAmountCents : Int
  provider : String
  providerConnectionId : String
  providerTransactionId : Option String
  externalId : Option String
  idempotencyKey : Option String
  operationId : Option String
  failureCode : Option BaasErrorCode
  providerFailureCode : Option String
  failureMessage : Option String
  requestedAt : Int
  settledAt : Option Int
  failedAt : Option Int
  ledgerPendingTransactionId : Option String
  ledgerPostedTransactionId : Option String
  endToEndId : Option String
deriving DecidableEq, Repr

inductive OperationStatusValue
  | PENDING | SUBMITTED | UNKNOWN | SETTLED | FAILED
deriving DecidableEq, Repr

def OperationStatusValue.isStuck : OperationStatusValue → Bool
  | .UNKNOWN | .SUBMITTED => true
  | _ => false

def OperationStatusValue.isFinal : OperationStatusValue → Bool
  | .SETTLED | .FAILED => true
  | _ => false

structure OperationRecord where
  id : String
  connectionId : String
  kind : String
  providerIdempotencyKey : String
  status : OperationStatusValue
  requestDigest : String
  providerRef : Option String
  endToEndId : Option String
  amountCents : Option Int
  accountId : Option String
  attempts : Nat
  createdAt : Int
deriving DecidableEq, Repr

structure OperationUpdate where
  id : String
  status : Option OperationStatusValue
  providerRef : Option String
  endToEndId : Option String
  incrementAttempts : Bool
deriving DecidableEq, Repr

/-- A field the update leaves undefined keeps its stored value. -/
def OperationRecord.update (r : OperationRecord) (u : OperationUpdate) : OperationRecord :=
  { r with
    status := u.status.getD r.status
    providerRef := u.providerRef.orElse fun _ => r.providerRef
    endToEndId := u.endToEndId.orElse fun _ => r.endToEndId
    attempts := if u.incrementAttempts then r.attempts + 1 else r.attempts }

inductive StatusChangeRejection
  | not_found | stale (reason : Staleness) | illegal_transition
deriving DecidableEq, Repr

def StatusChangeRejection.text : StatusChangeRejection → String
  | .not_found => "not_found"
  | .stale .stale_timestamp => "stale_timestamp"
  | .stale .same_state => "same_state"
  | .stale .stale_rank => "stale_rank"
  | .illegal_transition => "illegal_transition"

inductive StatusChangeResult (S R : Type)
  | applied (record : R)
  | rejected (reason : StatusChangeRejection) (currentStatus : Option S)
deriving Repr

/-- The decision of `applyStatusChange`: the monotonic guard first, then the
transition table. -/
def guardStatus {S : Type} [DecidableEq S] (table : TransitionTable S) (ranks : RankTable S)
    (current toStatus : S) (occurredAt : Int) (lastEventAt : Option Int) :
    Option StatusChangeRejection :=
  match decideMonotonic ranks current toStatus occurredAt lastEventAt with
  | some reason => some (.stale reason)
  | none =>
    if (checkTransition table current toStatus).allowed then none else some .illegal_transition

structure TransactionStatusChange where
  transactionId : String
  toStatus : TransactionStatus
  failureCode : Option BaasErrorCode
  providerFailureCode : Option String
  failureMessage : Option String
  endToEndId : Option String
  settledAt : Option Int
  ledgerPostedTransactionId : Option String
  occurredAt : Int
deriving DecidableEq, Repr

def TransactionRecord.guard (r : TransactionRecord) (toStatus : TransactionStatus)
    (occurredAt : Int) : Option StatusChangeRejection :=
  guardStatus transactionTransitions transactionRanks r.status toStatus occurredAt r.lastEventAt

def TransactionRecord.change (r : TransactionRecord) (c : TransactionStatusChange) :
    TransactionRecord :=
  { r with
    status := c.toStatus
    lastEventAt := some c.occurredAt
    failureCode := c.failureCode.orElse fun _ => r.failureCode
    providerFailureCode := c.providerFailureCode.orElse fun _ => r.providerFailureCode
    failureMessage := c.failureMessage.orElse fun _ => r.failureMessage
    settledAt := c.settledAt.orElse fun _ => r.settledAt
    failedAt := if c.toStatus = .FAILED then some c.occurredAt else r.failedAt
    ledgerPostedTransactionId :=
      c.ledgerPostedTransactionId.orElse fun _ => r.ledgerPostedTransactionId
    endToEndId := c.endToEndId.orElse fun _ => r.endToEndId }

structure AccountStatusChange where
  accountId : String
  toStatus : AccountStatus
  occurredAt : Int
deriving DecidableEq, Repr

def AccountRecord.guard (r : AccountRecord) (toStatus : AccountStatus) (occurredAt : Int) :
    Option StatusChangeRejection :=
  guardStatus accountTransitions accountRanks r.status toStatus occurredAt r.lastEventAt

def AccountRecord.change (r : AccountRecord) (c : AccountStatusChange) : AccountRecord :=
  { r with status := c.toStatus, lastEventAt := some c.occurredAt }

/-- A transaction as the provider reports it. -/
structure PixTransaction where
  providerTransactionId : String
  endToEndId : Option String
  status : TransactionStatus
  settledAt : Option Int
  failure : Option (String × String)
deriving DecidableEq, Repr

structure PixRefund where
  providerRefundId : String
  returnId : Option String
  status : TransactionStatus
  settledAt : Option Int
deriving DecidableEq, Repr

/-- An entry of the provider's statement, as the statement scan reads it. -/
structure StatementLine where
  providerEntryId : String
  providerTransactionId : Option String
  endToEndId : Option String
  debit : Bool
  amountCents : Int
  postedAt : Int
deriving DecidableEq, Repr

/-- What the adapter of a connection can do. -/
structure BoundProvider where
  slug : String
  accountsCreatePF : Bool
  accountsCreatePJ : Bool
  pixOutSend : Bool
  pixRefundCreate : Bool
  findByIdempotencyKey : Bool
  get : Bool
  statement : Bool
deriving DecidableEq, Repr

inductive ResponseBody
  | transaction (record : TransactionRecord)
  | accepted (record : TransactionRecord) (operation : OperationRecord)
  | account (record : AccountRecord)
  | error (error : BaasError)
deriving DecidableEq, Repr

inductive IdempotencyState
  | IN_FLIGHT | COMPLETED | FAILED
deriving DecidableEq, Repr

structure IdempotencyRecord where
  id : String
  endpointKey : String
  key : String
  requestFingerprint : String
  state : IdempotencyState
  operationId : String
  responseStatus : Option Nat
  responseBody : Option ResponseBody
  leaseExpiresAt : Option Int
deriving DecidableEq, Repr

structure IdempotencyClaim where
  endpointKey : String
  key : String
  requestFingerprint : String
  leaseSeconds : Int
deriving DecidableEq, Repr

structure ClaimResult where
  claimed : Bool
  record : IdempotencyRecord
deriving DecidableEq, Repr

structure IdempotencyCompletion where
  id : String
  status : Nat
  body : ResponseBody
  state : IdempotencyState
deriving DecidableEq, Repr

inductive PaymentDirection
  | incoming | outgoing
deriving DecidableEq, Repr

structure PaymentEventData where
  providerAccountId : Option String
  direction : Option PaymentDirection
  status : Option TransactionStatus
  amountCents : Option Int
  endToEndId : Option String
  settledAt : Option Int
deriving DecidableEq, Repr

/-- The aggregate an event is about, with what the event says of it. -/
inductive DraftSubject
  | account (transitionTo : AccountStatus)
  | transaction (transitionTo : TransactionStatus) (data : PaymentEventData)
deriving DecidableEq, Repr

structure CanonicalEventDraft where
  type : String
  providerId : String
  subject : DraftSubject
  occurredAt : Option Int
deriving DecidableEq, Repr

inductive InboundEventStatus
  | RECEIVED | PROCESSING | PROCESSED | FAILED | DISCARDED | DEAD_LETTER
deriving DecidableEq, Repr

/-- A stored webhook. Its payload stands as the drafts the adapter parses it to. -/
structure InboundEventRecord where
  id : String
  connectionId : String
  payload : List CanonicalEventDraft
  receivedAt : Int
  status : InboundEventStatus
  attempts : Nat
  lastError : Option String
deriving DecidableEq, Repr

inductive BreakType
  | MISSING_ON_LOCAL | MISSING_ON_PROVIDER | MISSING_ON_LEDGER | AMOUNT_MISMATCH | STATUS_MISMATCH
  | DUPLICATE_LOCAL | DUPLICATE_PROVIDER | DATE_MISMATCH | BALANCE_MISMATCH | UNMATCHED_FEE
  | ORPHAN_REFUND
deriving DecidableEq, Repr

inductive BreakSeverity
  | LOW | MEDIUM | HIGH | CRITICAL
deriving DecidableEq, Repr

inductive BreakStatus
  | OPEN | INVESTIGATING | RESOLVED | WRITTEN_OFF | AUTO_RESOLVED
deriving DecidableEq, Repr

structure ReconciliationBreakRecord where
  id : String
  connectionId : String
  accountId : Option String
  type : BreakType
  severity : BreakSeverity
  status : BreakStatus
  dedupeKey : String
  effectiveDate : String
  endToEndId : Option String
  amountCents : Option Int
  deltaCents : Option Int
  providerItemId : Option String
  localItemId : Option String
  ledgerItemId : Option String
deriving DecidableEq, Repr

structure ReconciliationItemRow where
  id : String
  externalId : Option String
  direction : TransactionDirection
  amountCents : Int
deriving DecidableEq, Repr

theorem guardStatus_none {S : Type} [DecidableEq S] {table : TransitionTable S}
    {ranks : RankTable S} {current toStatus : S} {occurredAt : Int} {lastEventAt : Option Int} :
    guardStatus table ranks current toStatus occurredAt lastEventAt = none ↔
      (∀ t, lastEventAt = some t → t ≤ occurredAt) ∧ ranks current < ranks toStatus ∧
        toStatus ∈ table current := by
  unfold guardStatus
  cases hd : decideMonotonic ranks current toStatus occurredAt lastEventAt with
  | some reason =>
    have hn : ¬ ((∀ t, lastEventAt = some t → t ≤ occurredAt) ∧ ranks current < ranks toStatus) :=
      fun h => by simp [decideMonotonic_none.mpr h] at hd
    simp only [reduceCtorEq, false_iff]
    exact fun h => hn ⟨h.1, h.2.1⟩
  | none =>
    obtain ⟨ht, hr⟩ := decideMonotonic_none.mp hd
    have hne : current ≠ toStatus := fun h => by simp [h] at hr
    simp only [checkTransition, if_neg hne, decide_eq_true_eq, ite_eq_left_iff, reduceCtorEq,
      imp_false, not_not]
    exact ⟨fun h => ⟨ht, hr, h⟩, fun h => h.2.2⟩

theorem guardStatus_stale_timestamp {S : Type} [DecidableEq S] {table : TransitionTable S}
    {ranks : RankTable S} {current toStatus : S} {occurredAt : Int} {lastEventAt : Option Int} :
    guardStatus table ranks current toStatus occurredAt lastEventAt =
        some (.stale .stale_timestamp) ↔
      ∃ t, lastEventAt = some t ∧ occurredAt < t := by
  have hd : decideMonotonic ranks current toStatus occurredAt lastEventAt = some .stale_timestamp ↔ _ :=
    decideMonotonic_stale_timestamp
  rw [← hd]
  unfold guardStatus
  cases decideMonotonic ranks current toStatus occurredAt lastEventAt with
  | some reason => simp
  | none => by_cases h : (checkTransition table current toStatus).allowed = true <;> simp [h]

end BaasConnector.Connector.Records
