import Mathlib
import BaasConnector.Lib.Keyed
import BaasConnector.Pix.TransactionRows

namespace BaasConnector.Pix.TransactionRepositories

open BaasConnector.Lib.Keyed BaasConnector.Lib.Mirrored BaasConnector.Taxonomy.Status
open BaasConnector.Connector.Columns
open BaasConnector.Connector BaasConnector.Taxonomy.Errors
open BaasConnector.Connector.Records (StatusChangeResult guardStatus)
open BaasConnector.Pix.TransactionRows

def providerSlugs : List String := ["CELCOIN", "QITECH", "DOCK", "ASAAS", "WOOVI", "MOCK_BANK"]

def changeSources : List String :=
  ["API", "PROVIDER_WEBHOOK", "POLLING", "RECONCILIATION", "MANUAL", "SYSTEM"]

/-- The input of `applyStatusChange`; of the callback `withinTransaction`, only
whether it throws. -/
structure StatusChange where
  environment : Environment
  transactionId : String
  toStatus : TransactionStatus
  failureCode : Option String
  providerFailureCode : Option String
  failureMessage : Option String
  endToEndId : Option String
  settledAt : Option Int
  ledgerPostedTransactionId : Option String
  occurredAt : Int
  source : String
  providerEventId : Option String
  withinTransactionThrows : Bool
deriving DecidableEq, Repr

structure Attachment where
  environment : Environment
  transactionId : String
  providerTransactionId : String
  endToEndId : Option String
  status : TransactionStatus
deriving DecidableEq, Repr

inductive Operation
  | create (record : TransactionRecord)
  | applyStatusChange (input : StatusChange)
  | attachProviderTransaction (input : Attachment)
  | findById (environment : Environment) (id : String)
  | findByProviderTransactionId (environment : Environment) (provider providerTransactionId : String)
  | findByEndToEndId (environment : Environment) (endToEndId : String)
  | findByIdempotencyKey (environment : Environment) (idempotencyKey : String)

inductive Reply
  | record (found : Option TransactionRecord)
  | change (result : StatusChangeResult TransactionStatus TransactionRecord)
  | thrown

/-- An empty text counts as absent. -/
def given (text : Option String) : Option String := text.filter (· ≠ "")

/-- Change the details of a transaction that has some, if there is an end-to-end
id to write. -/
def changed {P : Type} (f : String → P → P) (endToEndId : Option String) (pix : Option P) : Option P :=
  endToEndId.elim pix fun e => pix.map (f e)

def StatusChange.texts (c : StatusChange) : List (Nat × Option String) :=
  [(64, c.failureCode), (64, c.providerFailureCode), (1024, c.failureMessage),
    (40, c.ledgerPostedTransactionId), (32, given c.endToEndId)]

def StatusChange.historyTexts (c : StatusChange) : List (Nat × Option String) :=
  [(64, c.failureCode), (512, c.failureMessage), (40, c.providerEventId)]

def Attachment.texts (a : Attachment) : List (Nat × Option String) :=
  [(128, some a.providerTransactionId), (32, given a.endToEndId)]

def bigint (value : Int) : Bool := -2 ^ 63 ≤ value && value < 2 ^ 63

def amountsFit (r : TransactionRecord) : Bool :=
  [r.amountCents, r.feeCents, r.netAmountCents, r.refundedAmountCents].all bigint

def shared (a b : Option String) : Bool := a.isSome && a = b

/-- The unique indexes of `pix_detail` beside its primary key. -/
def detailsClash (p q : PixDetailRow) : Bool :=
  p.environment = q.environment && (shared p.endToEndId q.endToEndId || shared p.returnId q.returnId)

/-- The unique indexes of `transaction` beside its primary key. -/
def clashes (row other : TransactionRow) : Bool :=
  row.environment = other.environment &&
      ((row.provider = other.provider &&
          shared row.providerTransactionId other.providerTransactionId) ||
        shared row.idempotencyKey other.idempotencyKey || shared row.externalId other.externalId) ||
    row.pix.any fun p => other.pix.any (detailsClash p)

/-- What the provider answers to a payment, the counterparty as the service
writes it. -/
structure SentPix where
  providerTransactionId : String
  endToEndId : Option String
  counterparty : Option CounterpartyRecord
  settledAt : Option Int

def SentPix.record (sent : SentPix) (draft : TransactionRecord) : TransactionRecord :=
  { draft with
    providerTransactionId := some sent.providerTransactionId
    settledAt := sent.settledAt }

/-- The assignments of `recordSent` to the record that `create` returned. -/
def SentPix.fill (sent : SentPix) (transaction : TransactionRecord) : TransactionRecord :=
  { transaction with
    pix := transaction.pix.map fun p =>
      { p with
        endToEndId := (given sent.endToEndId).or p.endToEndId
        counterparty := sent.counterparty.or p.counterparty } }

namespace Prisma

/-- The transactions of the database and the rows they refer to. -/
structure Database where
  accounts : List String
  charges : List String
  transactions : Rows String TransactionRow (·.id)

variable (calendar : Calendar)

def Database.taken (d : Database) (row : TransactionRow) : Bool :=
  d.transactions.table.values.any fun other => other.id ≠ row.id && clashes row other

def Database.refers (d : Database) (row : TransactionRow) : Bool :=
  d.accounts.contains row.accountId && row.chargeId.all d.charges.contains &&
    row.parentTransactionId.all fun parent => parent = row.id || (d.transactions.get parent).isSome

/-- The row that an insert leaves behind, unless the database refuses it. -/
def Database.inserted (d : Database) (now : Int) (r : TransactionRecord) : Option TransactionRow :=
  (midnight calendar r.effectiveDate).bind fun day =>
    let row := r.toRow now day
    if r.texts.any rejected || !amountsFit r || !providerSlugs.contains r.provider ||
        !d.refers row || (d.transactions.get row.id).isSome || d.taken row then none
    else some row

/-- Store a row and reply with what it reads as, or throw when there is none. -/
def Database.write (d : Database) (reply : TransactionRecord → Reply) :
    Option TransactionRow → Reply × Database
  | none => (.thrown, d)
  | some row => (reply (toTransaction calendar row), { d with transactions := d.transactions.put row })

def Database.create (d : Database) (now : Int) (r : TransactionRecord) : Reply × Database :=
  d.write calendar (fun t => .record (some t)) (d.inserted calendar now r)

def settle (settledAt : Option Int) (e : String) (p : PixDetailRow) : PixDetailRow :=
  { p with endToEndId := some e, settlementAt := settledAt.or p.settlementAt }

def identify (e : String) (p : PixDetailRow) : PixDetailRow := { p with endToEndId := some e }

def applied (now : Int) (c : StatusChange) (row : TransactionRow) : TransactionRow :=
  { row with
    status := c.toStatus
    lastEventAt := some c.occurredAt
    failureCode := (nullable 64 c.failureCode).or row.failureCode
    providerFailureCode := (nullable 64 c.providerFailureCode).or row.providerFailureCode
    failureMessage := (nullable 1024 c.failureMessage).or row.failureMessage
    settledAt := c.settledAt.or row.settledAt
    failedAt := if c.toStatus = .FAILED then some c.occurredAt else row.failedAt
    processingAt := if c.toStatus = .PROCESSING then some c.occurredAt else row.processingAt
    ledgerPostedTransactionId :=
      (nullable 40 c.ledgerPostedTransactionId).or row.ledgerPostedTransactionId
    pix := changed (settle c.settledAt) (nullable 32 (given c.endToEndId)) row.pix
    updatedAt := now }

/-- The row after a status change, unless one of its statements or the callback
throws, which rolls the transaction back. -/
def Database.updated (d : Database) (now : Int) (c : StatusChange) (row : TransactionRow) :
    Option TransactionRow :=
  let row' := applied now c row
  if (c.texts ++ c.historyTexts).any rejected || !changeSources.contains c.source ||
      ((given c.endToEndId).isSome && row.pix.isNone) || d.taken row' || c.withinTransactionThrows
  then none else some row'

def Database.applyStatusChange (d : Database) (now : Int) (c : StatusChange) : Reply × Database :=
  match d.transactions.search
      fun row => decide (row.environment = c.environment) && decide (row.id = c.transactionId) with
  | none => (.change (.rejected .not_found none), d)
  | some row =>
    match guardStatus transactionTransitions transactionRanks row.status c.toStatus c.occurredAt
        row.lastEventAt with
    | some reason => (.change (.rejected reason (some row.status)), d)
    | none => d.write calendar (fun t => .change (.applied t)) (d.updated now c row)

def attached (now : Int) (a : Attachment) (row : TransactionRow) : TransactionRow :=
  { row with
    providerTransactionId := some (varchar 128 a.providerTransactionId)
    status := a.status
    pix := changed identify (nullable 32 (given a.endToEndId)) row.pix
    updatedAt := now }

def Database.joined (d : Database) (now : Int) (a : Attachment) (row : TransactionRow) :
    Option TransactionRow :=
  let row' := attached now a row
  if a.texts.any rejected || ((given a.endToEndId).isSome && row.pix.isNone) || d.taken row' then none
  else some row'

def Database.attachProviderTransaction (d : Database) (now : Int) (a : Attachment) :
    Reply × Database :=
  d.write calendar (fun t => .record (some t))
    ((d.transactions.get a.transactionId).bind (d.joined now a))

def Database.findFirst (d : Database) (p : TransactionRow → Bool) : Option TransactionRecord :=
  (d.transactions.search p).map (toTransaction calendar)

def Database.findById (d : Database) (environment : Environment) (id : String) :
    Option TransactionRecord :=
  d.findFirst calendar fun row => decide (row.environment = environment) && decide (row.id = id)

def Database.step (d : Database) (now : Int) : Operation → Reply × Database
  | .create record => d.create calendar now record
  | .applyStatusChange input => d.applyStatusChange calendar now input
  | .attachProviderTransaction input => d.attachProviderTransaction calendar now input
  | .findById environment id => (.record (d.findById calendar environment id), d)
  | .findByProviderTransactionId environment provider providerTransactionId =>
    if providerSlugs.contains provider then
      (.record (d.findFirst calendar fun row => decide (row.environment = environment) &&
        decide (row.provider = provider) &&
        decide (row.providerTransactionId = some providerTransactionId)), d)
    else (.thrown, d)
  | .findByEndToEndId environment endToEndId =>
    (.record (d.findFirst calendar fun row => decide (row.environment = environment) &&
      row.pix.any fun p => p.endToEndId = some endToEndId), d)
  | .findByIdempotencyKey environment idempotencyKey =>
    (.record (d.findFirst calendar fun row => decide (row.environment = environment) &&
      decide (row.idempotencyKey = some idempotencyKey)), d)

def Database.recordSent (d : Database) (now : Int) (draft : TransactionRecord) (sent : SentPix) :
    Option TransactionRecord × Database :=
  match d.create calendar now (sent.record draft) with
  | (.record (some transaction), d') => (some (sent.fill transaction), d')
  | (_, d') => (none, d')

end Prisma

namespace InMemory

structure Memory where
  rows : Rows String TransactionRecord (·.id)

def Memory.create (m : Memory) (record : TransactionRecord) : Reply × Memory :=
  (.record (some record), ⟨m.rows.put record⟩)

def settle (settledAt : Option Int) (e : String) (p : PixDetailRecord) : PixDetailRecord :=
  { p with endToEndId := some e, settlementAt := settledAt.or p.settlementAt }

def identify (e : String) (p : PixDetailRecord) : PixDetailRecord := { p with endToEndId := some e }

def applied (c : StatusChange) (row : TransactionRecord) : TransactionRecord :=
  { row with
    status := c.toStatus
    lastEventAt := some c.occurredAt
    failureCode := c.failureCode.or row.failureCode
    providerFailureCode := c.providerFailureCode.or row.providerFailureCode
    failureMessage := c.failureMessage.or row.failureMessage
    settledAt := c.settledAt.or row.settledAt
    failedAt := if c.toStatus = .FAILED then some c.occurredAt else row.failedAt
    ledgerPostedTransactionId := c.ledgerPostedTransactionId.or row.ledgerPostedTransactionId
    pix := changed (settle c.settledAt) (given c.endToEndId) row.pix
    updatedAt := c.occurredAt }

/-- The row is changed before the callback runs and stays changed when it
throws. -/
def Memory.applyStatusChange (m : Memory) (c : StatusChange) : Reply × Memory :=
  match (m.rows.get c.transactionId).filter fun row => row.environment = c.environment with
  | none => (.change (.rejected .not_found none), m)
  | some row =>
    match guardStatus transactionTransitions transactionRanks row.status c.toStatus c.occurredAt
        row.lastEventAt with
    | some reason => (.change (.rejected reason (some row.status)), m)
    | none =>
      let row' := applied c row
      (if c.withinTransactionThrows then .thrown else .change (.applied row'), ⟨m.rows.put row'⟩)

def attached (now : Int) (a : Attachment) (row : TransactionRecord) : TransactionRecord :=
  { row with
    providerTransactionId := some a.providerTransactionId
    status := a.status
    pix := changed identify (given a.endToEndId) row.pix
    updatedAt := now }

def Memory.attachProviderTransaction (m : Memory) (now : Int) (a : Attachment) : Reply × Memory :=
  match m.rows.get a.transactionId with
  | none => (.thrown, m)
  | some row => (.record (some (attached now a row)), ⟨m.rows.put (attached now a row)⟩)

def Memory.findById (m : Memory) (environment : Environment) (id : String) :
    Option TransactionRecord :=
  (m.rows.get id).filter fun row => row.environment = environment

def Memory.step (m : Memory) (now : Int) : Operation → Reply × Memory
  | .create record => m.create record
  | .applyStatusChange input => m.applyStatusChange input
  | .attachProviderTransaction input => m.attachProviderTransaction now input
  | .findById environment id => (.record (m.findById environment id), m)
  | .findByProviderTransactionId environment provider providerTransactionId =>
    (.record (m.rows.search fun row => decide (row.environment = environment) &&
      decide (row.provider = provider) &&
      decide (row.providerTransactionId = some providerTransactionId)), m)
  | .findByEndToEndId environment endToEndId =>
    (.record (m.rows.search fun row => decide (row.environment = environment) &&
      row.pix.any fun p => p.endToEndId = some endToEndId), m)
  | .findByIdempotencyKey environment idempotencyKey =>
    (.record (m.rows.search fun row => decide (row.environment = environment) &&
      decide (row.idempotencyKey = some idempotencyKey)), m)

/-- The record that `create` returns is the stored row itself, so that the
assignments reach the store. -/
def Memory.recordSent (m : Memory) (draft : TransactionRecord) (sent : SentPix) :
    Option TransactionRecord × Memory :=
  match m.create (sent.record draft) with
  | (.record (some transaction), m') =>
    (some (sent.fill transaction), ⟨m'.rows.put (sent.fill transaction)⟩)
  | (_, m') => (none, m')

end InMemory

section Services

open InMemory (Memory)

variable (names : BaasErrorCode → String)

/-- A stored transaction as the services read it; the failure is one of their codes. -/
def summary (failureCode : Option BaasErrorCode) (row : TransactionRecord) : Records.TransactionRecord :=
  { id := row.id
    accountId := row.accountId
    parentTransactionId := row.parentTransactionId
    type := row.type
    direction := row.direction
    status := row.status
    lastEventAt := row.lastEventAt
    amountCents := row.amountCents
    refundedAmountCents := row.refundedAmountCents
    provider := row.provider
    providerConnectionId := row.providerConnectionId
    providerTransactionId := row.providerTransactionId
    externalId := row.externalId
    idempotencyKey := row.idempotencyKey
    operationId := row.operationId
    failureCode
    providerFailureCode := row.providerFailureCode
    failureMessage := row.failureMessage
    requestedAt := row.requestedAt
    settledAt := row.settledAt
    failedAt := row.failedAt
    ledgerPendingTransactionId := row.ledgerPendingTransactionId
    ledgerPostedTransactionId := row.ledgerPostedTransactionId
    endToEndId := row.pix.bind (·.endToEndId) }

def StatusChange.ofService (environment : Environment) (source : String)
    (c : Records.TransactionStatusChange) : StatusChange :=
  { environment
    transactionId := c.transactionId
    toStatus := c.toStatus
    failureCode := c.failureCode.map names
    providerFailureCode := c.providerFailureCode
    failureMessage := c.failureMessage
    endToEndId := c.endToEndId
    settledAt := c.settledAt
    ledgerPostedTransactionId := c.ledgerPostedTransactionId
    occurredAt := c.occurredAt
    source
    providerEventId := none
    withinTransactionThrows := false }

/-- The services' record stands for the stored row. -/
structure Reads (row : TransactionRecord) (r : Records.TransactionRecord) : Prop where
  failure : row.failureCode = r.failureCode.map names
  rest : r = summary r.failureCode row

variable {names} {m : Memory} (environment : Environment) (source : String)
  {c : Records.TransactionStatusChange} {row : TransactionRecord} {r : Records.TransactionRecord}

theorem Reads.change (h : Reads names row r) (hpix : row.pix.isSome) (hid : c.endToEndId ≠ some "") :
    Reads names (InMemory.applied (.ofService names environment source c) row) (r.change c) := by
  obtain ⟨pix, hrow⟩ := Option.isSome_iff_exists.mp hpix
  constructor
  · cases hcode : c.failureCode with
    | none =>
      simpa [InMemory.applied, StatusChange.ofService, Records.TransactionRecord.change, hcode] using h.failure
    | some code => simp [InMemory.applied, StatusChange.ofService, Records.TransactionRecord.change, hcode]
  · rw [h.rest]
    cases hgiven : c.endToEndId with
    | none =>
      simp [summary, InMemory.applied, StatusChange.ofService, Records.TransactionRecord.change, hgiven, given,
        changed]
    | some e =>
      have hkept : given (some e) = some e := by
        rw [given, Option.filter_some, if_pos (by simpa [hgiven] using hid)]
      simp [summary, InMemory.applied, StatusChange.ofService, Records.TransactionRecord.change, hgiven, hkept,
        changed, hrow, InMemory.settle]

theorem InMemory.applyStatusChange_cases {change : StatusChange}
    (hrow : m.rows.get change.transactionId = some row) (hscope : row.environment = change.environment) :
    (∃ reason, guardStatus transactionTransitions transactionRanks row.status change.toStatus
        change.occurredAt row.lastEventAt = some reason ∧ (m.applyStatusChange change).2 = m) ∨
    (guardStatus transactionTransitions transactionRanks row.status change.toStatus change.occurredAt
        row.lastEventAt = none ∧
      (m.applyStatusChange change).2.rows = m.rows.put (InMemory.applied change row)) := by
  have hfound : (m.rows.get change.transactionId).filter (fun row => row.environment = change.environment) =
      some row := by
    rw [hrow, Option.filter_some, if_pos (decide_eq_true hscope)]
  rw [Memory.applyStatusChange, hfound]
  dsimp only
  cases guardStatus transactionTransitions transactionRanks row.status change.toStatus change.occurredAt
      row.lastEventAt with
  | some reason => exact .inl ⟨reason, rfl, rfl⟩
  | none => exact .inr ⟨rfl, rfl⟩

/-- A Pix transaction moves in the repository as its record does in the services. -/
theorem applyStatusChange_reads (hrow : m.rows.get c.transactionId = some row)
    (hscope : row.environment = environment) (h : Reads names row r) (hpix : row.pix.isSome)
    (hid : c.endToEndId ≠ some "") :
    match r.guard c.toStatus c.occurredAt with
    | some _ => (m.applyStatusChange (.ofService names environment source c)).2 = m
    | none => ∃ row', (m.applyStatusChange (.ofService names environment source c)).2.rows.get
        c.transactionId = some row' ∧ Reads names row' (r.change c) := by
  have hguard : r.guard c.toStatus c.occurredAt = guardStatus transactionTransitions transactionRanks
      row.status c.toStatus c.occurredAt row.lastEventAt := by
    rw [h.rest]
    rfl
  have hto : m.rows.get (StatusChange.ofService names environment source c).transactionId = some row := hrow
  obtain ⟨reason, hreason, hkept⟩ | ⟨hnone, hput⟩ :=
    InMemory.applyStatusChange_cases hto hscope
  · rw [hguard.trans hreason]
    exact hkept
  · rw [hguard.trans hnone, hput]
    refine ⟨_, ?_, h.change environment source hpix hid⟩
    rw [← m.rows.key_of_get hrow]
    exact m.rows.get_put_self _

end Services

end BaasConnector.Pix.TransactionRepositories
