import BaasConnector.MockBank.Ledger
import BaasConnector.Pix.Refunds

namespace BaasConnector.MockBank.Payments

open BaasConnector.Connector.Records (PaymentDirection)
open BaasConnector.Lib.Keyed BaasConnector.Taxonomy.Status
open BaasConnector.Ledger.Types BaasConnector.Ledger.Engine BaasConnector.Ledger.MemoryStore
open BaasConnector.Ledger.Shadow BaasConnector.Ledger.ChartOfAccounts BaasConnector.Ledger.Reachable
open BaasConnector.Ledger.Calls BaasConnector.Pix.Refunds BaasConnector.MockBank.Errors
open BaasConnector.MockBank.Ledger

structure MockAccount where
  id : String
  status : AccountStatus
  availableLedgerAccountId : String
  blockedLedgerAccountId : String
deriving DecidableEq, Repr

structure MockPayment where
  id : String
  accountId : String
  direction : PaymentDirection
  status : TransactionStatus
  amountCents : Int
  feeCents : Int
  endToEndId : Option String
  returnId : Option String
  originalEndToEndId : Option String
  idempotencyKey : Option String
  refundedCents : Int
  ledgerPendingTransactionId : Option String
  ledgerPostedTransactionId : Option String
  createdAt : Int
  settledAt : Option Int
deriving DecidableEq, Repr

structure MockBankStore where
  accounts : Rows String MockAccount MockAccount.id
  payments : Rows String MockPayment MockPayment.id
  paymentsByIdempotencyKey : Table String String
  paymentsByEndToEndId : Table String String

def MockBankStore.empty : MockBankStore := ⟨.empty, .empty, .empty, .empty⟩

structure MockBankConfig where
  pixOutFeeCents : Int
  nightlyPixOutLimitCents : Int
  dailyPixOutLimitCents : Int
deriving DecidableEq, Repr

/-- The bank, with the payments it has handed over to be settled later. -/
structure BankState where
  ledger : LedgerStore
  store : MockBankStore
  settling : Table String MockPayment

inductive PixOutScenario
  | INSUFFICIENT_FUNDS | PROVIDER_ERROR | TIMEOUT | AUTO_REFUND | DUPLICATE_WEBHOOK
  | OUT_OF_ORDER_WEBHOOK | SETTLE
deriving DecidableEq, Repr

def pixOutScenarioFor (amountCents : Int) : PixOutScenario :=
  match amountCents.tmod 100 with
  | 13 => .INSUFFICIENT_FUNDS
  | 51 => .PROVIDER_ERROR
  | 29 => .TIMEOUT
  | 44 => .AUTO_REFUND
  | 7 => .DUPLICATE_WEBHOOK
  | 8 => .OUT_OF_ORDER_WEBHOOK
  | _ => .SETTLE

/-- What a new payment is given: its ids and the readings of the clock. -/
structure PaymentMint where
  id : String
  endToEndId : String
  createdAt : Int
  settledAt : Int
deriving DecidableEq, Repr

/-- A text that is there and not empty. -/
def given (text : Option String) : Option String := text.filter (· ≠ "")

def getAccount (store : MockBankStore) (id : String) : Except Thrown MockAccount :=
  match store.accounts.get id with
  | some account => .ok account
  | none => .error (.bank (.accountNotFound id))

def persist (store : MockBankStore) (payment : MockPayment) : MockBankStore where
  accounts := store.accounts
  payments := store.payments.put payment
  paymentsByIdempotencyKey :=
    match given payment.idempotencyKey with
    | some key => store.paymentsByIdempotencyKey.set key payment.id
    | none => store.paymentsByIdempotencyKey
  paymentsByEndToEndId :=
    match given payment.endToEndId with
    | some endToEndId => store.paymentsByEndToEndId.set endToEndId payment.id
    | none => store.paymentsByEndToEndId

/-- The payment that an idempotency key has been used for. -/
def existingId (store : MockBankStore) (idempotencyKey : Option String) : Option String :=
  given ((given idempotencyKey).bind store.paymentsByIdempotencyKey.get)

/-- What a caller gets: a payment, if the store has it, or no answer at all. -/
inductive Answer
  | payment (payment : Option MockPayment)
  | hang
deriving DecidableEq, Repr

section SendPix

structure SendPixInput where
  accountId : String
  amountCents : Int
  idempotencyKey : Option String
  /-- What looking up the destination throws. -/
  destinationError : Option MockBankError
deriving DecidableEq, Repr

def balances (ledger : LedgerStore) (ledgerAccountId : String) : Except Thrown Balances :=
  match ledger.accounts.get ledgerAccountId with
  | some account => .ok (computeBalances account)
  | none => .error (.bank (.accountNotFound ledgerAccountId))

/-- What is refused before the ledger is asked. -/
def assertCanSend (config : MockBankConfig) (nightly : Bool) (bank : BankState) (input : SendPixInput) :
    Except Thrown MockAccount := do
  let account ← getAccount bank.store input.accountId
  if account.status ≠ .ACTIVE then throw (.bank (.accountNotActive account.status))
  match pixOutScenarioFor input.amountCents with
  | .INSUFFICIENT_FUNDS =>
    let available ← balances bank.ledger account.availableLedgerAccountId
    throw (.bank (.insufficientFunds available.available))
  | .PROVIDER_ERROR => throw (.bank .injected)
  | _ =>
    let limit := if nightly then config.nightlyPixOutLimitCents else config.dailyPixOutLimitCents
    if limit < input.amountCents then throw (.bank (.limitExceeded limit))
    match input.destinationError with
    | some e => throw (.bank e)
    | none => return account

def authorizeOptions (config : MockBankConfig) (mint : PaymentMint) (account : MockAccount)
    (input : SendPixInput) : AuthorizeOptions where
  ledgerAccountId := account.availableLedgerAccountId
  amountCents := input.amountCents
  feeCents := config.pixOutFeeCents
  idempotencyKey := "pixout-auth-" ++ mint.id
  externalRef := some mint.id

def outgoingPayment (config : MockBankConfig) (mint : PaymentMint) (account : MockAccount)
    (input : SendPixInput) (pendingTransactionId : String) : MockPayment where
  id := mint.id
  accountId := account.id
  direction := .outgoing
  status := .PROCESSING
  amountCents := input.amountCents
  feeCents := config.pixOutFeeCents
  endToEndId := some mint.endToEndId
  returnId := none
  originalEndToEndId := none
  idempotencyKey := input.idempotencyKey
  refundedCents := 0
  ledgerPendingTransactionId := some pendingTransactionId
  ledgerPostedTransactionId := none
  createdAt := mint.createdAt
  settledAt := none

/-- A payment is reserved in the ledger, recorded, and handed over to be settled. -/
def sendPix (config : MockBankConfig) (nightly : Bool) (mint : PaymentMint) (ledgerMint : Mint)
    (bank : BankState) (input : SendPixInput) : Except Thrown Answer × BankState :=
  match existingId bank.store input.idempotencyKey with
  | some id => (.ok (.payment (bank.store.payments.get id)), bank)
  | none =>
    match assertCanSend config nightly bank input with
    | .error e => (.error e, bank)
    | .ok account =>
      match Ledger.run bank.ledger ledgerMint
        (.authorizePixOut (authorizeOptions config mint account input)) with
      | (.error e, ledger) => (.error e, { bank with ledger })
      | (.ok pending, ledger) =>
        let payment := outgoingPayment config mint account input pending.transaction.id
        let store := persist bank.store payment
        if pixOutScenarioFor input.amountCents = .TIMEOUT then
          (.ok .hang, { bank with ledger, store })
        else
          (.ok (.payment (some payment)),
            { ledger, store, settling := bank.settling.set payment.id payment })

/-- The recorded payment, once both legs of its settlement have gone through. -/
def settled (store : MockBankStore) (id : String) (settledAt : Int) : MockBankStore :=
  match store.payments.get id with
  | some payment => { store with
      payments := store.payments.put { payment with status := .SETTLED, settledAt := some settledAt } }
  | none => store

def settleOptions (payment : MockPayment) : SettleOptions where
  pendingTransactionId := payment.ledgerPendingTransactionId.getD ""
  amountCents := payment.amountCents
  idempotencyKey := "pixout-settle-" ++ payment.id

/-- The settlement of a payment that was handed over, after its delay. -/
def settleLater (bank : BankState) (id : String) (commitMint externalMint : Mint) (settledAt : Int) :
    BankState :=
  match bank.settling.get id with
  | none => bank
  | some payment =>
    let settling := bank.settling.delete id
    match Ledger.run bank.ledger commitMint (.settlePixOut (settleOptions payment)) with
    | (.error _, ledger) => { bank with ledger, settling }
    | (.ok _, ledger) =>
      match Ledger.run ledger externalMint (.settleExternal (settleOptions payment)) with
      | (.error _, ledger) => { bank with ledger, settling }
      | (.ok _, ledger) => { ledger, store := settled bank.store id settledAt, settling }

end SendPix

section ReceivePix

structure ReceivePixInput where
  accountId : Option String
  /-- The account of the active key that the payment names. -/
  keyAccountId : Option String
  amountCents : Int
  description : Option String
deriving DecidableEq, Repr

/-- The account to be credited, if there is one. -/
def resolveReceiver (store : MockBankStore) (input : ReceivePixInput) :
    Except Thrown (Option MockAccount) :=
  match given input.accountId with
  | some id => (getAccount store id).map some
  | none =>
    match input.keyAccountId with
    | some id => (getAccount store id).map some
    | none => .ok none

def creditOptions (mint : PaymentMint) (account : MockAccount) (input : ReceivePixInput) :
    CreditOptions where
  ledgerAccountId := account.availableLedgerAccountId
  amountCents := input.amountCents
  idempotencyKey := "pixin-" ++ mint.id
  externalRef := some mint.id
  description := input.description

def incomingPayment (mint : PaymentMint) (accountId : String) (input : ReceivePixInput)
    (postedTransactionId : Option String) : MockPayment where
  id := mint.id
  accountId := accountId
  direction := .incoming
  status := .SETTLED
  amountCents := input.amountCents
  feeCents := 0
  endToEndId := some mint.endToEndId
  returnId := none
  originalEndToEndId := none
  idempotencyKey := none
  refundedCents := 0
  ledgerPendingTransactionId := none
  ledgerPostedTransactionId := postedTransactionId
  createdAt := mint.createdAt
  settledAt := some mint.settledAt

/-- Where a payment is kept that no account could be found for. -/
def suspense : String := "suspense"

def receivePix (mint : PaymentMint) (ledgerMint : Mint) (bank : BankState) (input : ReceivePixInput) :
    Except Thrown MockPayment × BankState :=
  match resolveReceiver bank.store input with
  | .error e => (.error e, bank)
  | .ok none =>
    let payment := incomingPayment mint suspense input none
    (.ok payment, { bank with store := persist bank.store payment })
  | .ok (some account) =>
    match Ledger.run bank.ledger ledgerMint (.creditFromExternal (creditOptions mint account input)) with
    | (.error e, ledger) => (.error e, { bank with ledger })
    | (.ok posted, ledger) =>
      let payment := incomingPayment mint account.id input (some posted.transaction.id)
      (.ok payment, { bank with ledger, store := persist bank.store payment })

end ReceivePix

section Refund

structure RefundPixInput where
  accountId : String
  originalEndToEndId : String
  amountCents : Option Int
  idempotencyKey : Option String
deriving DecidableEq, Repr

def findByEndToEndId (store : MockBankStore) (endToEndId : String) : Option MockPayment :=
  (given (store.paymentsByEndToEndId.get endToEndId)).bind store.payments.get

def refundAmount (original : MockPayment) (input : RefundPixInput) : Int :=
  input.amountCents.getD original.amountCents

/-- The original and the account that a refund goes from, once nothing stands against it. -/
def assertCanRefund (store : MockBankStore) (now : Int) (input : RefundPixInput) :
    Except Thrown (MockPayment × MockAccount) := do
  match findByEndToEndId store input.originalEndToEndId with
  | none => throw (.bank (.transactionNotFound input.originalEndToEndId))
  | some original =>
    if refundWindowDays < daysBetween original.createdAt now then
      throw (.bank (.refundWindowExpired refundWindowDays))
    if original.amountCents < original.refundedCents + refundAmount original input then
      throw (.bank .refundExceedsOriginal)
    let account ← getAccount store input.accountId
    return (original, account)

def refundOptions (mint : PaymentMint) (original : MockPayment) (account : MockAccount)
    (input : RefundPixInput) : RefundOptions where
  ledgerAccountId := account.availableLedgerAccountId
  amountCents := refundAmount original input
  idempotencyKey := "refund-" ++ mint.id
  externalRef := some mint.id

/-- The original with what is given back of it. -/
def givenBack (original : MockPayment) (amountCents : Int) : MockPayment :=
  let refundedCents := original.refundedCents + amountCents
  { original with
    refundedCents
    status := if original.amountCents ≤ refundedCents then .REVERSED else .PARTIALLY_REVERSED }

def refundPayment (mint : PaymentMint) (original : MockPayment) (account : MockAccount)
    (input : RefundPixInput) (postedTransactionId : String) : MockPayment where
  id := mint.id
  accountId := account.id
  direction := .outgoing
  status := .SETTLED
  amountCents := refundAmount original input
  feeCents := 0
  endToEndId := none
  returnId := some mint.endToEndId
  originalEndToEndId := some input.originalEndToEndId
  idempotencyKey := input.idempotencyKey
  refundedCents := 0
  ledgerPendingTransactionId := none
  ledgerPostedTransactionId := some postedTransactionId
  createdAt := mint.createdAt
  settledAt := some mint.settledAt

def refund (now : Int) (mint : PaymentMint) (ledgerMint : Mint) (bank : BankState)
    (input : RefundPixInput) : Except Thrown (Option MockPayment) × BankState :=
  match existingId bank.store input.idempotencyKey with
  | some id => (.ok (bank.store.payments.get id), bank)
  | none =>
    match assertCanRefund bank.store now input with
    | .error e => (.error e, bank)
    | .ok (original, account) =>
      match Ledger.run bank.ledger ledgerMint (.postRefund (refundOptions mint original account input)) with
      | (.error e, ledger) => (.error e, { bank with ledger })
      | (.ok posted, ledger) =>
        let payment := refundPayment mint original account input posted.transaction.id
        let payments := bank.store.payments.put (givenBack original (refundAmount original input))
        (.ok (some payment), { bank with ledger, store := persist { bank.store with payments } payment })

end Refund

section Control

/-- A new account of the bank, with its two accounts in the ledger. -/
def create (bank : BankState) (id availableId blockedId : String) : BankState :=
  let ledger := openCustomerAccounts bank.ledger availableId blockedId id
  let account : MockAccount := {
    id
    status := .PENDING_ONBOARDING
    availableLedgerAccountId := (bank.ledger.accountIdByCode (customerAvailableCode id)).getD availableId
    blockedLedgerAccountId := (bank.ledger.accountIdByCode (customerBlockedCode id)).getD blockedId }
  { bank with ledger, store := { bank.store with accounts := bank.store.accounts.put account } }

def setStatus (bank : BankState) (id : String) (status : AccountStatus) : BankState :=
  match bank.store.accounts.get id with
  | none => bank
  | some account =>
    { bank with store := { bank.store with accounts := bank.store.accounts.put { account with status } } }

/-- The bank forgets a payment, which may still be on its way. -/
def forget (bank : BankState) (transactionId : String) : BankState :=
  match bank.store.payments.get transactionId with
  | none => bank
  | some payment =>
    { bank with store :=
      { bank.store with
        payments := bank.store.payments.delete payment.id
        paymentsByEndToEndId :=
          match given payment.endToEndId with
          | some endToEndId => bank.store.paymentsByEndToEndId.delete endToEndId
          | none => bank.store.paymentsByEndToEndId
        paymentsByIdempotencyKey :=
          match given payment.idempotencyKey with
          | some key => bank.store.paymentsByIdempotencyKey.delete key
          | none => bank.store.paymentsByIdempotencyKey } }

/-- The bank starts anew, but for its ledger and what is on its way. -/
def reset (bank : BankState) : BankState := { bank with store := .empty }

end Control

/-- What the bank does between two waits. The clock may be moved at any time, so each
step has the readings it takes. -/
inductive BankStep
  | create (id availableId blockedId : String)
  | setStatus (id : String) (status : AccountStatus)
  | sendPix (nightly : Bool) (mint : PaymentMint) (ledgerMint : Mint) (input : SendPixInput)
  | settleLater (id : String) (commitMint externalMint : Mint) (settledAt : Int)
  | receivePix (mint : PaymentMint) (ledgerMint : Mint) (input : ReceivePixInput)
  | refund (now : Int) (mint : PaymentMint) (ledgerMint : Mint) (input : RefundPixInput)
  | blockFunds (ledgerMint : Mint) (options : BlockOptions)
  | voidPixOut (ledgerMint : Mint) (options : VoidOptions)
  | forget (transactionId : String)
  | reset

def perform (config : MockBankConfig) (bank : BankState) : BankStep → BankState
  | .create id availableId blockedId => create bank id availableId blockedId
  | .setStatus id status => setStatus bank id status
  | .sendPix nightly mint ledgerMint input => (sendPix config nightly mint ledgerMint bank input).2
  | .settleLater id commitMint externalMint settledAt =>
    settleLater bank id commitMint externalMint settledAt
  | .receivePix mint ledgerMint input => (receivePix mint ledgerMint bank input).2
  | .refund now mint ledgerMint input => (refund now mint ledgerMint bank input).2
  | .blockFunds ledgerMint options =>
    { bank with ledger := (Ledger.run bank.ledger ledgerMint (.blockFunds options)).2 }
  | .voidPixOut ledgerMint options =>
    { bank with ledger := (Ledger.run bank.ledger ledgerMint (.voidPixOut options)).2 }
  | .forget transactionId => forget bank transactionId
  | .reset => reset bank

section Statement

inductive StatementCategory
  | PAGAMENTO | TARIFA | DEVOLUCAO
deriving DecidableEq, Repr

structure StatementLine where
  id : String
  payment : MockPayment
  categoria : StatementCategory
  direction : PaymentDirection
  amountCents : Int
  effectiveAt : Int
deriving DecidableEq, Repr

def settledForStatement : List TransactionStatus := [.SETTLED, .REVERSED, .PARTIALLY_REVERSED]

def MockPayment.effectiveAt (payment : MockPayment) : Int := payment.settledAt.getD payment.createdAt

/-- The lines of a payment: its own, and one for its fee. -/
def linesOf (payment : MockPayment) : List StatementLine :=
  { id := payment.id
    payment
    categoria := if (given payment.returnId).isSome then .DEVOLUCAO else .PAGAMENTO
    direction := payment.direction
    amountCents := payment.amountCents
    effectiveAt := payment.effectiveAt } ::
    if 0 < payment.feeCents then
      [{ id := payment.id ++ "-tarifa"
         payment
         categoria := .TARIFA
         direction := .outgoing
         amountCents := payment.feeCents
         effectiveAt := payment.effectiveAt }]
    else []

/-- The lines of an account in a window, by instant and id. The collation of ids is
the runtime's. -/
def statementLines (localeCompare : String → String → Int) (store : MockBankStore) (accountId : String)
    (start finish : Int) : List StatementLine :=
  (store.payments.table.values.flatMap fun payment =>
    if payment.accountId ≠ accountId then []
    else if payment.status ∉ settledForStatement then []
    else if payment.effectiveAt < start ∨ finish < payment.effectiveAt then []
    else linesOf payment).insertionSort fun a b => a.effectiveAt < b.effectiveAt ∨
      (a.effectiveAt = b.effectiveAt ∧ localeCompare a.id b.id ≤ 0)

end Statement

end BaasConnector.MockBank.Payments
