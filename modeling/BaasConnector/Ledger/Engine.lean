import BaasConnector.Lib.Effects
import BaasConnector.Lib.Keyed
import BaasConnector.Taxonomy.Errors
import Mathlib.Data.List.Sort

namespace BaasConnector.Ledger.Types

inductive NormalBalance
  | DEBIT | CREDIT
deriving DecidableEq, Repr

inductive EntryDirection
  | DEBIT | CREDIT
deriving DecidableEq, Repr

inductive EntryPhase
  | PENDING | POSTED | VOID
deriving DecidableEq, Repr

/-- The two phases a posting may ask for. -/
inductive PostPhase
  | PENDING | POSTED
deriving DecidableEq, Repr

def PostPhase.entryPhase : PostPhase → EntryPhase
  | .PENDING => .PENDING
  | .POSTED => .POSTED

inductive LedgerTransactionStatus
  | PENDING | POSTED | VOIDED
deriving DecidableEq, Repr

def LedgerTransactionStatus.text : LedgerTransactionStatus → String
  | .PENDING => "PENDING"
  | .POSTED => "POSTED"
  | .VOIDED => "VOIDED"

inductive LedgerTransactionType
  | PIX_OUT_AUTHORIZE | PIX_OUT_SETTLE | PIX_OUT_VOID | PIX_IN_RECEIVE | PIX_REFUND_OUT
  | PIX_REFUND_IN | FEE_CHARGE | FEE_REVERSAL | BLOCK_FUNDS | UNBLOCK_FUNDS
  | ACCOUNT_OPENING_FUNDING | MANUAL_ADJUSTMENT | SUSPENSE_RESOLUTION | RECONCILIATION_ADJUSTMENT
deriving DecidableEq, Repr

structure LedgerAccount where
  id : String
  code : String
  normalBalance : NormalBalance
  allowsNegative : Bool
  debitsPosted : Int
  creditsPosted : Int
  debitsPending : Int
  creditsPending : Int
  entryCount : Nat
  version : Nat
deriving DecidableEq, Repr

structure LedgerEntryInput where
  accountId : String
  direction : EntryDirection
  amountCents : Int
deriving DecidableEq, Repr

structure LedgerEntry extends LedgerEntryInput where
  id : String
  transactionId : String
  phase : EntryPhase
  currency : String
  sequence : Nat
  resultingPostedCents : Int
  effectiveAt : Int
deriving DecidableEq, Repr

structure LedgerTransaction where
  id : String
  type : LedgerTransactionType
  status : LedgerTransactionStatus
  currency : String
  amountCents : Int
  idempotencyKey : String
  externalRef : Option String
  description : Option String
  pendingTransactionId : Option String
  effectiveAt : Int
  postedAt : Option Int
  voidedAt : Option Int
  metadata : List (String × String)
deriving DecidableEq, Repr

structure PostTransactionInput where
  id : Option String
  type : LedgerTransactionType
  phase : PostPhase
  idempotencyKey : String
  entries : List LedgerEntryInput
  currency : Option String
  externalRef : Option String
  description : Option String
  effectiveAt : Option Int
  metadata : Option (List (String × String))
deriving DecidableEq, Repr

structure PostTransactionResult where
  transaction : LedgerTransaction
  entries : List LedgerEntry
  replayed : Bool
deriving DecidableEq, Repr

structure Balances where
  posted : Int
  available : Int
  pending : Int
deriving DecidableEq, Repr

def computeBalances (account : LedgerAccount) : Balances :=
  match account.normalBalance with
  | .CREDIT =>
    let posted := account.creditsPosted - account.debitsPosted
    ⟨posted, posted - account.debitsPending, account.creditsPending⟩
  | .DEBIT =>
    let posted := account.debitsPosted - account.creditsPosted
    ⟨posted, posted - account.creditsPending, account.debitsPending⟩

def violatesOverdraftGuard (account : LedgerAccount) : Bool :=
  if account.allowsNegative then false else decide ((computeBalances account).available < 0)

end BaasConnector.Ledger.Types

namespace BaasConnector.Ledger.Engine

open BaasConnector.Lib.Effects BaasConnector.Lib.Keyed BaasConnector.Ledger.Types
open BaasConnector.Taxonomy.Errors

/-- The accounts a callback holds, by id. -/
abbrev Accounts := Table String LedgerAccount

inductive StoreCall
  | lockAccounts (orderedIds : List String)
  | findByIdempotencyKey (key : String)
  | findTransaction (id : String)
  | findEntriesByTransaction (id : String)
  | persist (transaction : LedgerTransaction) (entries : List LedgerEntry)
      (accounts : List LedgerAccount)
deriving DecidableEq

abbrev StoreAnswer : StoreCall → Type
  | .lockAccounts _ => Accounts
  | .findByIdempotencyKey _ => Option PostTransactionResult
  | .findTransaction _ => Option LedgerTransaction
  | .findEntriesByTransaction _ => List LedgerEntry
  | .persist .. => Unit

inductive LedgerThrown
  | insufficientFunds (accountId : String) (requested available : Int)
  | unbalanced (debits credits : Int)
  | validation (message : String)
  | failure (message : String)
deriving DecidableEq, Repr

abbrev StoreProg (α : Type) := Prog StoreCall StoreAnswer LedgerThrown α

def lockAccounts (orderedIds : List String) : StoreProg Accounts :=
  Prog.perform (StoreCall.lockAccounts orderedIds)

def findByIdempotencyKey (key : String) : StoreProg (Option PostTransactionResult) :=
  Prog.perform (StoreCall.findByIdempotencyKey key)

def findTransaction (id : String) : StoreProg (Option LedgerTransaction) :=
  Prog.perform (StoreCall.findTransaction id)

def findEntriesByTransaction (id : String) : StoreProg (List LedgerEntry) :=
  Prog.perform (StoreCall.findEntriesByTransaction id)

def persist (transaction : LedgerTransaction) (entries : List LedgerEntry)
    (accounts : List LedgerAccount) : StoreProg Unit :=
  Prog.perform (StoreCall.persist transaction entries accounts)

/-- The identifiers and the clock reading that one engine call takes. -/
structure Mint where
  transactionId : String
  entryId : Nat → String
  now : Int

structure CounterDelta where
  debitsPosted : Int
  creditsPosted : Int
  debitsPending : Int
  creditsPending : Int
deriving DecidableEq

def zeroDelta : CounterDelta := ⟨0, 0, 0, 0⟩

def sumDirection (direction : EntryDirection) (entries : List LedgerEntryInput) : Int :=
  ((entries.filter (·.direction = direction)).map (·.amountCents)).foldr (· + ·) 0

def assertBalanced (entries : List LedgerEntryInput) : Except LedgerThrown Int :=
  if entries.length < 2 then
    .error (.validation "Uma transacao de partidas dobradas exige ao menos 2 lancamentos")
  else
    match entries.find? (fun entry => decide (entry.amountCents ≤ 0)) with
    | some entry =>
      let cents := entry.amountCents
      .error (.validation s!"Lancamento com valor nao positivo ({cents}); o sinal vive em direction")
    | none =>
      let debits := sumDirection .DEBIT entries
      let credits := sumDirection .CREDIT entries
      if debits = credits then .ok debits else .error (.unbalanced debits credits)

def lockOrder (entries : List LedgerEntryInput) : List String :=
  (entries.map (·.accountId)).dedup.insertionSort (· ≤ ·)

def applyDelta (account : LedgerAccount) (delta : CounterDelta) : LedgerAccount :=
  { account with
    debitsPosted := account.debitsPosted + delta.debitsPosted
    creditsPosted := account.creditsPosted + delta.creditsPosted
    debitsPending := account.debitsPending + delta.debitsPending
    creditsPending := account.creditsPending + delta.creditsPending
    entryCount := account.entryCount + 1
    version := account.version + 1 }

def deltaFor (phase : PostPhase) (entry : LedgerEntryInput) : CounterDelta :=
  match phase, entry.direction with
  | .PENDING, .DEBIT => { zeroDelta with debitsPending := entry.amountCents }
  | .PENDING, .CREDIT => { zeroDelta with creditsPending := entry.amountCents }
  | .POSTED, .DEBIT => { zeroDelta with debitsPosted := entry.amountCents }
  | .POSTED, .CREDIT => { zeroDelta with creditsPosted := entry.amountCents }

def resolveDelta (commit : Bool) (entry : LedgerEntryInput) : CounterDelta :=
  match entry.direction, commit with
  | .DEBIT, false => { zeroDelta with debitsPending := -entry.amountCents }
  | .CREDIT, false => { zeroDelta with creditsPending := -entry.amountCents }
  | .DEBIT, true =>
    { zeroDelta with debitsPending := -entry.amountCents, debitsPosted := entry.amountCents }
  | .CREDIT, true =>
    { zeroDelta with creditsPending := -entry.amountCents, creditsPosted := entry.amountCents }

def entryOf (mint : Mint) (transaction : LedgerTransaction) (phase : EntryPhase) (index : Nat)
    (input : LedgerEntryInput) (after : LedgerAccount) : LedgerEntry :=
  { input with
    id := mint.entryId index
    transactionId := transaction.id
    phase := phase
    currency := transaction.currency
    sequence := index
    resultingPostedCents := (computeBalances after).posted
    effectiveAt := transaction.effectiveAt }

/-- Apply the deltas one entry after the other, guarding the balance of each
account as it changes. -/
def buildEntries (mint : Mint) (transaction : LedgerTransaction) (phase : EntryPhase)
    (delta : LedgerEntryInput → CounterDelta) :
    Nat → List LedgerEntryInput → Accounts → Except LedgerThrown (List LedgerEntry × Accounts)
  | _, [], accounts => .ok ([], accounts)
  | index, input :: inputs, accounts =>
    match accounts.get input.accountId with
    | none =>
      let id := input.accountId
      .error (.validation s!"Conta {id} nao travada")
    | some before =>
      let after := applyDelta before (delta input)
      if violatesOverdraftGuard after then
        .error (.insufficientFunds input.accountId input.amountCents (computeBalances before).available)
      else
        match buildEntries mint transaction phase delta (index + 1) inputs
            (accounts.set input.accountId after) with
        | .error e => .error e
        | .ok (entries, accounts) => .ok (entryOf mint transaction phase index input after :: entries,
            accounts)

def assertAccountsExist (entries : List LedgerEntryInput) (accounts : Accounts) :
    Except LedgerThrown Unit :=
  match entries.find? (fun entry => (accounts.get entry.accountId).isNone) with
  | some entry =>
    let id := entry.accountId
    .error (.validation s!"Conta de razao {id} nao existe")
  | none => .ok ()

def defaultCurrency : String := "BRL"

def postedTransaction (mint : Mint) (input : PostTransactionInput) (debits : Int) :
    LedgerTransaction :=
  let effectiveAt := input.effectiveAt.getD mint.now
  { id := input.id.getD mint.transactionId
    type := input.type
    status := match input.phase with | .PENDING => .PENDING | .POSTED => .POSTED
    currency := input.currency.getD defaultCurrency
    amountCents := debits
    idempotencyKey := input.idempotencyKey
    externalRef := input.externalRef
    description := input.description
    pendingTransactionId := none
    effectiveAt := effectiveAt
    postedAt := match input.phase with | .POSTED => some effectiveAt | .PENDING => none
    voidedAt := none
    metadata := input.metadata.getD [] }

def post (mint : Mint) (input : PostTransactionInput) : StoreProg PostTransactionResult := do
  match ← findByIdempotencyKey input.idempotencyKey with
  | some existing => return { existing with replayed := true }
  | none =>
    let debits ← Prog.ofExcept (assertBalanced input.entries)
    let accounts ← lockAccounts (lockOrder input.entries)
    Prog.ofExcept (assertAccountsExist input.entries accounts)
    let transaction := postedTransaction mint input debits
    let (entries, accounts) ← Prog.ofExcept (buildEntries mint transaction input.phase.entryPhase
      (deltaFor input.phase) 0 input.entries accounts)
    persist transaction entries accounts.values
    return { transaction, entries, replayed := false }

structure ResolveOptions where
  idempotencyKey : String
  type : Option LedgerTransactionType
deriving DecidableEq, Repr

def resolution (mint : Mint) (pendingTransactionId : String) (options : ResolveOptions)
    (commit : Bool) (pending : LedgerTransaction) : LedgerTransaction :=
  { id := mint.transactionId
    type := options.type.getD pending.type
    status := if commit then .POSTED else .VOIDED
    currency := pending.currency
    amountCents := pending.amountCents
    idempotencyKey := options.idempotencyKey
    externalRef := pending.externalRef
    description := pending.description
    pendingTransactionId := some pendingTransactionId
    effectiveAt := mint.now
    postedAt := if commit then some mint.now else none
    voidedAt := if commit then none else some mint.now
    metadata := pending.metadata }

def resolvedPending (mint : Mint) (commit : Bool) (pending : LedgerTransaction) :
    LedgerTransaction :=
  { pending with
    status := if commit then .POSTED else .VOIDED
    postedAt := if commit then some mint.now else pending.postedAt
    voidedAt := if commit then pending.voidedAt else some mint.now }

def resolvePending (mint : Mint) (pendingTransactionId : String) (options : ResolveOptions)
    (commit : Bool) : StoreProg PostTransactionResult := do
  match ← findByIdempotencyKey options.idempotencyKey with
  | some existing => return { existing with replayed := true }
  | none =>
    match ← findTransaction pendingTransactionId with
    | none => throw (.validation s!"Transacao pendente {pendingTransactionId} nao encontrada")
    | some pending =>
      let text := pending.status.text
      if pending.status ≠ .PENDING then
        throw (.validation
          s!"Transacao {pendingTransactionId} esta {text}; so PENDING pode ser resolvida")
      else
        let pendingEntries ← findEntriesByTransaction pendingTransactionId
        let inputs := pendingEntries.map (·.toLedgerEntryInput)
        let accounts ← lockAccounts (lockOrder inputs)
        let transaction := resolution mint pendingTransactionId options commit pending
        let (entries, accounts) ← Prog.ofExcept (buildEntries mint transaction
          (if commit then .POSTED else .VOID) (resolveDelta commit) 0 inputs accounts)
        persist transaction entries accounts.values
        persist (resolvedPending mint commit pending) [] []
        return { transaction, entries, replayed := false }

def commitPending (mint : Mint) (pendingTransactionId : String) (options : ResolveOptions) :
    StoreProg PostTransactionResult :=
  resolvePending mint pendingTransactionId options true

def voidPending (mint : Mint) (pendingTransactionId : String) (options : ResolveOptions) :
    StoreProg PostTransactionResult :=
  resolvePending mint pendingTransactionId options false

end BaasConnector.Ledger.Engine
