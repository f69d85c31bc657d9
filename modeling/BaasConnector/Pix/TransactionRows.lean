import Mathlib.Tactic.MkIffOfInductiveProp
import BaasConnector.Connector.Records

namespace BaasConnector.Pix.TransactionRows

open BaasConnector.Taxonomy.Status BaasConnector.Connector.Columns
open BaasConnector.Connector.Records (TransactionDirection TransactionType)

inductive PixInitiationMethod
  | MANUAL | KEY | STATIC_QRCODE | DYNAMIC_QRCODE | COPY_PASTE | PAYMENT_INITIATOR
deriving DecidableEq, Repr

inductive PixPurpose
  | TRANSFER | PURCHASE | WITHDRAWAL | CHANGE
deriving DecidableEq, Repr

inductive PixKeyType
  | CPF | CNPJ | EMAIL | PHONE | EVP
deriving DecidableEq, Repr

@[ext]
structure CounterpartyRecord where
  name : Option String
  taxIdLast4 : Option String
  taxIdIndex : Option String
  ispb : Option String
  branch : Option String
  accountNumber : Option String
deriving DecidableEq, Repr

structure PixDetailRecord where
  endToEndId : Option String
  returnId : Option String
  originalEndToEndId : Option String
  txid : Option String
  initiationMethod : PixInitiationMethod
  purpose : PixPurpose
  keyType : Option PixKeyType
  keyValue : Option String
  counterparty : Option CounterpartyRecord
  remittanceInfo : Option String
  settlementAt : Option Int
deriving DecidableEq, Repr

/-- A transaction as the service sees it. An optional field that is null or
undefined is `none`; instants are milliseconds since the epoch. -/
structure TransactionRecord where
  id : String
  environment : Environment
  accountId : String
  chargeId : Option String
  parentTransactionId : Option String
  type : TransactionType
  direction : TransactionDirection
  status : TransactionStatus
  lastEventAt : Option Int
  amountCents : Int
  feeCents : Int
  netAmountCents : Int
  refundedAmountCents : Int
  currency : String
  description : Option String
  provider : String
  providerConnectionId : String
  providerTransactionId : Option String
  externalId : Option String
  idempotencyKey : Option String
  operationId : Option String
  failureCode : Option String
  providerFailureCode : Option String
  failureMessage : Option String
  effectiveDate : String
  requestedAt : Int
  settledAt : Option Int
  failedAt : Option Int
  ledgerPendingTransactionId : Option String
  ledgerPostedTransactionId : Option String
  pix : Option PixDetailRecord
  metadata : List (String × String)
  createdAt : Int
  updatedAt : Int
deriving DecidableEq, Repr

structure PixDetailRow where
  environment : Environment
  endToEndId : Option String
  returnId : Option String
  originalEndToEndId : Option String
  txid : Option String
  initiationMethod : PixInitiationMethod
  purpose : PixPurpose
  keyType : Option PixKeyType
  keyValue : Option String
  counterpartyName : Option String
  counterpartyTaxIdIndex : Option String
  counterpartyTaxIdLast4 : Option String
  counterpartyIspb : Option String
  counterpartyBranch : Option String
  counterpartyAccount : Option String
  remittanceInfo : Option String
  settlementAt : Option Int
deriving DecidableEq, Repr

structure TransactionRow where
  id : String
  environment : Environment
  accountId : String
  chargeId : Option String
  parentTransactionId : Option String
  type : TransactionType
  direction : TransactionDirection
  status : TransactionStatus
  lastEventAt : Option Int
  amountCents : Int
  feeCents : Int
  netAmountCents : Int
  refundedAmountCents : Int
  currency : String
  description : Option String
  provider : String
  providerConnectionId : String
  providerTransactionId : Option String
  externalId : Option String
  idempotencyKey : Option String
  operationId : Option String
  failureCode : Option String
  providerFailureCode : Option String
  failureMessage : Option String
  effectiveDate : Int
  requestedAt : Int
  processingAt : Option Int
  settledAt : Option Int
  failedAt : Option Int
  ledgerPendingTransactionId : Option String
  ledgerPostedTransactionId : Option String
  pix : Option PixDetailRow
  metadata : List (String × String)
  createdAt : Int
  updatedAt : Int
deriving DecidableEq, Repr

/-- How the runtime reads and writes instants as text. -/
structure Calendar where
  parse : String → Option Int
  toISOString : Int → String

variable (calendar : Calendar)

def toDateOnly (value : Int) : String := String.ofList ((calendar.toISOString value).toList.take 10)

def midnight (date : String) : Option Int := calendar.parse (date ++ "T00:00:00.000Z")

def PixDetailRecord.toRow (environment : Environment) (p : PixDetailRecord) : PixDetailRow where
  environment := environment
  endToEndId := nullable 32 p.endToEndId
  returnId := nullable 32 p.returnId
  originalEndToEndId := nullable 32 p.originalEndToEndId
  txid := nullable 35 p.txid
  initiationMethod := p.initiationMethod
  purpose := p.purpose
  keyType := p.keyType
  keyValue := nullable 77 p.keyValue
  counterpartyName := nullable 255 (p.counterparty.bind (·.name))
  counterpartyTaxIdIndex := nullable 64 (p.counterparty.bind (·.taxIdIndex))
  counterpartyTaxIdLast4 := nullable 4 (p.counterparty.bind (·.taxIdLast4))
  counterpartyIspb := nullable 8 (p.counterparty.bind (·.ispb))
  counterpartyBranch := nullable 8 (p.counterparty.bind (·.branch))
  counterpartyAccount := nullable 20 (p.counterparty.bind (·.accountNumber))
  remittanceInfo := nullable 140 p.remittanceInfo
  settlementAt := p.settlementAt

/-- The row that `create` inserts at an instant: the failure, the settlement and
the clock columns are not among the data it names. -/
def TransactionRecord.toRow (now day : Int) (r : TransactionRecord) : TransactionRow where
  id := varchar 40 r.id
  environment := r.environment
  accountId := varchar 40 r.accountId
  chargeId := nullable 40 r.chargeId
  parentTransactionId := nullable 40 r.parentTransactionId
  type := r.type
  direction := r.direction
  status := r.status
  lastEventAt := r.lastEventAt
  amountCents := r.amountCents
  feeCents := r.feeCents
  netAmountCents := r.netAmountCents
  refundedAmountCents := r.refundedAmountCents
  currency := varchar 3 r.currency
  description := nullable 512 r.description
  provider := r.provider
  providerConnectionId := varchar 40 r.providerConnectionId
  providerTransactionId := nullable 128 r.providerTransactionId
  externalId := nullable 128 r.externalId
  idempotencyKey := nullable 255 r.idempotencyKey
  operationId := nullable 40 r.operationId
  failureCode := none
  providerFailureCode := none
  failureMessage := none
  effectiveDate := day
  requestedAt := r.requestedAt
  processingAt := none
  settledAt := none
  failedAt := none
  ledgerPendingTransactionId := nullable 40 r.ledgerPendingTransactionId
  ledgerPostedTransactionId := nullable 40 r.ledgerPostedTransactionId
  pix := r.pix.map (PixDetailRecord.toRow r.environment)
  metadata := r.metadata
  createdAt := now
  updatedAt := now

def PixDetailRow.toDetail (p : PixDetailRow) : PixDetailRecord where
  endToEndId := p.endToEndId
  returnId := p.returnId
  originalEndToEndId := p.originalEndToEndId
  txid := p.txid
  initiationMethod := p.initiationMethod
  purpose := p.purpose
  keyType := p.keyType
  keyValue := p.keyValue
  counterparty := some
    { name := p.counterpartyName
      taxIdLast4 := p.counterpartyTaxIdLast4
      taxIdIndex := p.counterpartyTaxIdIndex
      ispb := p.counterpartyIspb
      branch := p.counterpartyBranch
      accountNumber := p.counterpartyAccount }
  remittanceInfo := p.remittanceInfo
  settlementAt := p.settlementAt

def toTransaction (row : TransactionRow) : TransactionRecord where
  id := row.id
  environment := row.environment
  accountId := row.accountId
  chargeId := row.chargeId
  parentTransactionId := row.parentTransactionId
  type := row.type
  direction := row.direction
  status := row.status
  lastEventAt := row.lastEventAt
  amountCents := row.amountCents
  feeCents := row.feeCents
  netAmountCents := row.netAmountCents
  refundedAmountCents := row.refundedAmountCents
  currency := row.currency
  description := row.description
  provider := row.provider
  providerConnectionId := row.providerConnectionId
  providerTransactionId := row.providerTransactionId
  externalId := row.externalId
  idempotencyKey := row.idempotencyKey
  operationId := row.operationId
  failureCode := row.failureCode
  providerFailureCode := row.providerFailureCode
  failureMessage := row.failureMessage
  effectiveDate := toDateOnly calendar row.effectiveDate
  requestedAt := row.requestedAt
  settledAt := row.settledAt
  failedAt := row.failedAt
  ledgerPendingTransactionId := row.ledgerPendingTransactionId
  ledgerPostedTransactionId := row.ledgerPostedTransactionId
  pix := row.pix.map PixDetailRow.toDetail
  metadata := row.metadata
  createdAt := row.createdAt
  updatedAt := row.updatedAt

def CounterpartyRecord.texts (c : CounterpartyRecord) : List (Nat × Option String) :=
  [(255, c.name), (64, c.taxIdIndex), (4, c.taxIdLast4), (8, c.ispb), (8, c.branch),
    (20, c.accountNumber)]

def PixDetailRecord.texts (p : PixDetailRecord) : List (Nat × Option String) :=
  [(32, p.endToEndId), (32, p.returnId), (32, p.originalEndToEndId), (35, p.txid),
    (77, p.keyValue), (140, p.remittanceInfo)] ++ p.counterparty.elim [] CounterpartyRecord.texts

/-- The texts of a record, each with the width of its column. -/
def TransactionRecord.texts (r : TransactionRecord) : List (Nat × Option String) :=
  [(40, some r.id), (40, some r.accountId), (40, r.chargeId), (40, r.parentTransactionId),
    (3, some r.currency), (512, r.description), (40, some r.providerConnectionId),
    (128, r.providerTransactionId), (128, r.externalId), (255, r.idempotencyKey),
    (40, r.operationId), (40, r.ledgerPendingTransactionId), (40, r.ledgerPostedTransactionId)] ++
  r.pix.elim [] PixDetailRecord.texts

/-- What a record must look like for its row to read back as the record. -/
@[mk_iff]
structure Preserved (now : Int) (r : TransactionRecord) : Prop where
  texts : r.texts.all fits
  failureCode : r.failureCode = none
  providerFailureCode : r.providerFailureCode = none
  failureMessage : r.failureMessage = none
  settledAt : r.settledAt = none
  failedAt : r.failedAt = none
  createdAt : r.createdAt = now
  updatedAt : r.updatedAt = now
  counterparty : ∀ p, r.pix = some p → p.counterparty ≠ none
  effectiveDate : (midnight calendar r.effectiveDate).map (toDateOnly calendar) = some r.effectiveDate

theorem toDetail_toRow_iff {environment : Environment} {p : PixDetailRecord} :
    (p.toRow environment).toDetail = p ↔ p.texts.all fits ∧ p.counterparty ≠ none := by
  obtain ⟨e, r, o, x, m, u, t, k, c, i, a⟩ := p
  cases c with
  | none => simp [PixDetailRecord.toRow, PixDetailRow.toDetail]
  | some c =>
    simp only [PixDetailRecord.toRow, PixDetailRow.toDetail, PixDetailRecord.mk.injEq,
      CounterpartyRecord.ext_iff, nullable_eq_iff, PixDetailRecord.texts, CounterpartyRecord.texts,
      Option.bind_some, Option.elim, List.all_cons, List.all_nil, List.cons_append, List.nil_append,
      Bool.and_eq_true, Option.some.injEq]
    grind

theorem details_iff {environment : Environment} {pix : Option PixDetailRecord} :
    (pix.map (PixDetailRecord.toRow environment)).map PixDetailRow.toDetail = pix ↔
      (pix.elim [] PixDetailRecord.texts).all fits ∧
        ∀ p, pix = some p → p.counterparty ≠ none := by
  cases pix with
  | none => simp
  | some p =>
    rw [Option.map_some, Option.map_some, Option.some.injEq, toDetail_toRow_iff]
    simp

theorem toTransaction_toRow_iff {now day : Int} {r : TransactionRecord}
    (hd : midnight calendar r.effectiveDate = some day) :
    toTransaction calendar (r.toRow now day) = r ↔ Preserved calendar now r := by
  have hdate : toDateOnly calendar day = r.effectiveDate ↔
      (midnight calendar r.effectiveDate).map (toDateOnly calendar) = some r.effectiveDate := by
    rw [hd, Option.map_some, Option.some.injEq]
  have hp := @details_iff r.environment r.pix
  obtain ⟨⟩ := r
  dsimp only at hd hdate hp
  simp only [preserved_iff, toTransaction, TransactionRecord.toRow, TransactionRecord.mk.injEq,
    varchar_eq_iff, nullable_eq_iff, hdate, hp, TransactionRecord.texts, List.all_append,
    List.all_cons, List.all_nil, Bool.and_eq_true, fits_some, and_true, true_and]
  grind

end BaasConnector.Pix.TransactionRows
