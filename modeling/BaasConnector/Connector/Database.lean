import BaasConnector.Connector.Calls

namespace BaasConnector.Connector.Database

open BaasConnector.Lib.Effects BaasConnector.Lib.Keyed BaasConnector.Taxonomy.Errors
open BaasConnector.Ledger.Types BaasConnector.Ledger.Engine BaasConnector.Ledger.MemoryStore
open BaasConnector.Ledger.Shadow BaasConnector.Connector.Records BaasConnector.Connector.Calls

/-- What the connector stores, with the payments that exist at the provider. -/
structure World where
  minted : List String
  accounts : Rows String AccountRecord AccountRecord.id
  transactions : Rows String TransactionRecord TransactionRecord.id
  operations : Rows String OperationRecord OperationRecord.id
  idempotency : Rows String IdempotencyRecord IdempotencyRecord.id
  ledger : LedgerStore
  payments : List String
  events : Rows String InboundEventRecord InboundEventRecord.id
  breaks : Rows String ReconciliationBreakRecord ReconciliationBreakRecord.id
  items : Rows String ReconciliationItemRow ReconciliationItemRow.id
  provider : BoundProvider
  calendar : Int → String

inductive SendReply
  | accepted (transaction : PixTransaction)
  | refused (error : BaasError)
  | failed (message : String)
  | lost (created : Bool) (error : BaasError)

inductive RefundReply
  | accepted (refund : PixRefund)
  | refused (error : BaasError)
  | failed (message : String)
  | lost (error : BaasError)

/-- Everything about one reply that the stored state does not determine. -/
structure Choice where
  fault : Option String := none
  ulid : String := ""
  secondUlid : String := ""
  instant : Int := 0
  granted : Bool := true
  mint : Mint := ⟨"", fun _ => "", 0⟩
  sent : SendReply := .failed ""
  refunded : RefundReply := .failed ""
  found : Except Thrown (Option PixTransaction) := .ok none
  got : Except Thrown PixTransaction := .error (.failure "")
  lines : Except Thrown (List StatementLine) := .ok []
  opened : Except Thrown CreatedAccount := .error (.failure "")
  stuck : List String := []

abbrev Reply (α : Type) := Option (Except Thrown α × World)

def uniqueViolation : Thrown := .failure "Unique constraint failed"

def recordNotFound : Thrown := .failure "Record to update not found."

def reply {α : Type} (a : α) (w : World) : Reply α := some (.ok a, w)

def refuse {α : Type} (e : Thrown) (w : World) : Reply α := some (.error e, w)

/-- An optional column that carries a unique index holds this value. -/
def taken (column value : Option String) : Bool := value.isSome && column == value

def World.transactionConflict (w : World) (r : TransactionRecord) : Bool :=
  (w.transactions.get r.id).isSome ||
    (w.transactions.search fun t =>
      (t.provider == r.provider && taken t.providerTransactionId r.providerTransactionId) ||
        taken t.idempotencyKey r.idempotencyKey || taken t.externalId r.externalId ||
        taken t.endToEndId r.endToEndId).isSome

/-- The row an insert stores: the columns that `create` does not write start out empty. -/
def storedTransaction (r : TransactionRecord) : TransactionRecord :=
  { r with
    failureCode := none, providerFailureCode := none, failureMessage := none
    settledAt := none, failedAt := none }

def World.createTransaction (w : World) (r : TransactionRecord) : Reply TransactionRecord :=
  if w.transactionConflict r then refuse uniqueViolation w
  else
    reply (storedTransaction r)
      { w with transactions := w.transactions.put (storedTransaction r) }

def World.changeTransaction (w : World) (c : TransactionStatusChange) :
    Reply (StatusChangeResult Taxonomy.Status.TransactionStatus TransactionRecord) :=
  match w.transactions.get c.transactionId with
  | none => reply (.rejected .not_found none) w
  | some r =>
    match r.guard c.toStatus c.occurredAt with
    | some reason => reply (.rejected reason (some r.status)) w
    | none =>
      if (w.transactions.search fun t =>
          t.id != r.id && taken t.endToEndId c.endToEndId).isSome then
        refuse uniqueViolation w
      else
        reply (.applied (r.change c))
          { w with transactions := w.transactions.put (r.change c) }

def World.createOperation (w : World) (r : OperationRecord) : Reply OperationRecord :=
  if (w.operations.get r.id).isSome || (w.operations.search fun o =>
      o.connectionId == r.connectionId &&
        o.providerIdempotencyKey == r.providerIdempotencyKey).isSome then
    refuse uniqueViolation w
  else reply r { w with operations := w.operations.put r }

def World.updateOperation (w : World) (u : OperationUpdate) : Reply (Option OperationRecord) :=
  match w.operations.get u.id with
  | none => reply none w
  | some r => reply (some (r.update u)) { w with operations := w.operations.put (r.update u) }

def World.changeAccount (w : World) (c : AccountStatusChange) :
    Reply (StatusChangeResult Taxonomy.Status.AccountStatus AccountRecord) :=
  match w.accounts.get c.accountId with
  | none => reply (.rejected .not_found none) w
  | some r =>
    match r.guard c.toStatus c.occurredAt with
    | some reason => reply (.rejected reason (some r.status)) w
    | none =>
      reply (.applied (r.change c)) { w with accounts := w.accounts.put (r.change c) }

def World.createAccount (w : World) (r : AccountRecord) : Reply AccountRecord :=
  if (w.accounts.get r.id).isSome ||
      (w.accounts.search fun a => taken a.externalId r.externalId).isSome then
    refuse uniqueViolation w
  else
    let row := { r with providerAccountId := none, ledgerAvailableAccountId := none, lastEventAt := none }
    reply row { w with accounts := w.accounts.put row }

def World.updateAccount (w : World) (id : String) (f : AccountRecord → AccountRecord) :
    Reply AccountRecord :=
  match w.accounts.get id with
  | none => refuse recordNotFound w
  | some r => reply (f r) { w with accounts := w.accounts.put (f r) }

def World.updateRecord (w : World) (id : String) (f : IdempotencyRecord → IdempotencyRecord) :
    Reply Unit :=
  match w.idempotency.get id with
  | none => refuse recordNotFound w
  | some r => reply () { w with idempotency := w.idempotency.put (f r) }

def World.claim (w : World) (c : Choice) (i : IdempotencyClaim) : Reply ClaimResult :=
  match w.idempotency.search (fun r => r.endpointKey == i.endpointKey && r.key == i.key) with
  | some record => reply ⟨false, record⟩ w
  | none =>
    let id := idOf .idempotency c.ulid
    let operationId := idOf .operation c.secondUlid
    if id ∈ w.minted ∨ operationId ∈ w.minted then none
    else
      let record : IdempotencyRecord :=
        { id, endpointKey := i.endpointKey, key := i.key, requestFingerprint := i.requestFingerprint
          state := .IN_FLIGHT, operationId, responseStatus := none, responseBody := none
          leaseExpiresAt := some (c.instant + i.leaseSeconds * 1000) }
      reply ⟨true, record⟩
        { w with
          minted := id :: operationId :: w.minted
          idempotency := w.idempotency.put record }

def World.stealLease (w : World) (c : Choice) (id : String) (leaseSeconds : Int) :
    Reply (Option IdempotencyRecord) :=
  match w.idempotency.get id with
  | none => reply none w
  | some r =>
    if r.state = .IN_FLIGHT ∧ r.leaseExpiresAt.any (· ≤ c.instant) then
      let record := { r with leaseExpiresAt := some (c.instant + leaseSeconds * 1000) }
      reply (some record) { w with idempotency := w.idempotency.put record }
    else reply none w

def World.complete (w : World) (k : IdempotencyCompletion) : Reply Unit :=
  w.updateRecord k.id fun r =>
    { r with
      state := k.state, responseStatus := some k.status, responseBody := some k.body
      leaseExpiresAt := none }

def World.updateEvent (w : World) (id : String) (f : InboundEventRecord → InboundEventRecord) :
    Reply Unit :=
  match w.events.get id with
  | none => refuse recordNotFound w
  | some e => reply () { w with events := w.events.put (f e) }

/-- Compare and set: only a received or failed event is taken up. -/
def World.markProcessing (w : World) (id : String) : Reply Bool :=
  match w.events.get id with
  | none => reply false w
  | some e =>
    if e.status = .RECEIVED ∨ e.status = .FAILED then
      reply true
        { w with events := w.events.put { e with status := .PROCESSING, attempts := e.attempts + 1 } }
    else reply false w

/-- A break that recurs keeps its row; a resolved one opens again. -/
def World.upsertBreak (w : World) (row : ReconciliationBreakRecord) : Reply String :=
  match w.breaks.search (fun b =>
    b.connectionId == row.connectionId && b.type == row.type && b.effectiveDate == row.effectiveDate &&
      b.dedupeKey == row.dedupeKey) with
  | some b =>
    let status := match b.status with
      | .RESOLVED | .AUTO_RESOLVED => BreakStatus.OPEN
      | kept => kept
    reply b.id
      { w with
        breaks := w.breaks.put
          { row with id := b.id, accountId := b.accountId, endToEndId := b.endToEndId, status } }
  | none => reply row.id { w with breaks := w.breaks.put { row with status := .OPEN } }

def World.openLedgerAccounts (w : World) (c : Choice) (accountId : String) : Reply String :=
  let availableId := idOf .ledgerAccount c.ulid
  let blockedId := idOf .ledgerAccount c.secondUlid
  if (w.ledger.accounts.get availableId).isSome ∨ (w.ledger.accounts.get blockedId).isSome ∨
      availableId = blockedId then none
  else
    let (id, ledger) := ensureAccount w.ledger (customerAvailableCode accountId) availableId
    let (_, ledger) := ensureAccount ledger (customerBlockedCode accountId) blockedId
    reply id { w with ledger }

def World.ledgerCommand (w : World) (c : Choice) (command : LedgerCommand) :
    Reply PostTransactionResult :=
  if (w.ledger.transactions.get c.mint.transactionId).isSome then none
  else
    match command.perform c.mint w.ledger with
    | (r, ledger) => some (r, { w with ledger })

def World.requireCapability (w : World) (capability : Capability) : Reply BoundProvider :=
  let supported := match capability with
    | .accountsCreatePF => w.provider.accountsCreatePF
    | .accountsCreatePJ => w.provider.accountsCreatePJ
    | .pixOutSend => w.provider.pixOutSend
    | .pixRefundCreate => w.provider.pixRefundCreate
  if supported then reply w.provider w
  else
    let slug := w.provider.slug
    let text := capability.text
    refuse (.baas
      { code := .CAPABILITY_NOT_SUPPORTED
        message := s!"O provedor '{slug}' nao suporta a capacidade '{text}'." }) w

/-- The provider creates one payment for each operation it accepts. -/
def World.pay (w : World) (operationId : String) : World :=
  if operationId ∈ w.payments then w else { w with payments := operationId :: w.payments }

def World.send (w : World) (c : Choice) (request : SendRequest) : Reply PixTransaction :=
  match c.sent with
  | .accepted t => reply t (w.pay request.idempotencyKey)
  | .refused e => refuse (.baas e) w
  | .failed message => refuse (.failure message) w
  | .lost true e => refuse (.outcomeUnknown e) (w.pay request.idempotencyKey)
  | .lost false e => refuse (.outcomeUnknown e) w

def World.refund (w : World) (c : Choice) : Reply PixRefund :=
  match c.refunded with
  | .accepted r => reply r w
  | .refused e => refuse (.baas e) w
  | .failed message => refuse (.failure message) w
  | .lost e => refuse (.outcomeUnknown e) w

def World.mint (w : World) (c : Choice) (kind : IdKind) : Reply String :=
  let id := idOf kind c.ulid
  if id ∈ w.minted then none else reply id { w with minted := id :: w.minted }

def respond (c : Choice) : (q : Call) → World → Reply (Answer q)
  | .newId kind, w => w.mint c kind
  | .now, w => reply c.instant w
  | .effectiveDate instant, w => reply (w.calendar instant) w
  | .emit _, w => reply () w
  | .accountFindById id, w => reply (w.accounts.get id) w
  | .accountFindByProviderAccountId provider pid, w =>
    reply (w.accounts.search fun a => a.provider == provider && a.providerAccountId == some pid) w
  | .accountFindByExternalId ext, w =>
    reply (w.accounts.search fun a => a.externalId == some ext) w
  | .accountCreate record, w => w.createAccount record
  | .accountAttachProviderAccount id pid status, w =>
    w.updateAccount id fun a => { a with providerAccountId := some pid, status := status }
  | .accountAttachLedgerAccounts id availableId, w =>
    w.updateAccount id fun a => { a with ledgerAvailableAccountId := some availableId }
  | .accountApplyStatusChange change, w => w.changeAccount change
  | .transactionFindById id, w => reply (w.transactions.get id) w
  | .transactionFindByProviderTransactionId provider ptid, w =>
    reply (w.transactions.search fun t =>
      t.provider == provider && t.providerTransactionId == some ptid) w
  | .transactionFindByEndToEndId e2e, w =>
    reply (w.transactions.search fun t => t.endToEndId == some e2e) w
  | .transactionFindByIdempotencyKey key, w =>
    reply (w.transactions.search fun t => t.idempotencyKey == some key) w
  | .transactionCreate record, w => w.createTransaction record
  | .transactionApplyStatusChange change, w => w.changeTransaction change
  | .operationFindById id, w => reply (w.operations.get id) w
  | .operationCreate record, w => w.createOperation record
  | .operationUpdate update, w => w.updateOperation update
  | .operationFindStuck limit, w =>
    reply (((c.stuck.filterMap w.operations.get).filter (·.status.isStuck)).take limit) w
  | .ledger command, w => w.ledgerCommand c command
  | .ledgerOpenAccounts accountId, w => w.openLedgerAccounts c accountId
  | .providerResolve _, w => reply w.provider w
  | .providerRequire _ capability, w => w.requireCapability capability
  | .providerSend request, w => w.send c request
  | .providerRefund _, w => w.refund c
  | .providerFindByIdempotencyKey .., w => some (c.found, w)
  | .providerGet .., w => some (c.got, w)
  | .providerStatement _, w => some (c.lines, w)
  | .providerCreateAccount _, w => some (c.opened, w)
  | .idempotencyClaim claim, w => w.claim c claim
  | .idempotencyStealLease id leaseSeconds, w => w.stealLease c id leaseSeconds
  | .idempotencyRenewLease id leaseSeconds, w =>
    w.updateRecord id fun r => { r with leaseExpiresAt := some (c.instant + leaseSeconds * 1000) }
  | .idempotencyComplete completion, w => w.complete completion
  | .idempotencyRelease id, w =>
    reply () (if c.granted then { w with idempotency := w.idempotency.delete id } else w)
  | .eventFindById id, w => reply (w.events.get id) w
  | .eventMarkProcessing id, w => w.markProcessing id
  | .eventMarkProcessed id, w => w.updateEvent id fun e => { e with status := .PROCESSED }
  | .eventMarkDiscarded id reason, w =>
    w.updateEvent id fun e => { e with status := .DISCARDED, lastError := some reason }
  | .eventMarkFailed id error deadLetter, w =>
    w.updateEvent id fun e =>
      { e with status := if deadLetter then .DEAD_LETTER else .FAILED, lastError := some error }
  | .lockAcquire _, w => reply c.granted w
  | .lockRelease _, w => reply () w
  | .breakFindById id, w => reply (w.breaks.get id) w
  | .breakUpsert row, w => w.upsertBreak row
  | .breakResolveManually id status, w =>
    match w.breaks.get id with
    | none => reply none w
    | some b => reply (some { b with status }) { w with breaks := w.breaks.put { b with status } }
  | .itemFindById id, w => reply (w.items.get id) w
  | .runStart id, w => reply id w

/-- Reading the clock, minting an id and formatting a date never throw, and a
release swallows its failure. -/
def Call.fallible : Call → Bool
  | .newId _ | .now | .effectiveDate _ | .idempotencyRelease _ => false
  | _ => true

def answer (c : Choice) (q : Call) (w : World) : Reply (Answer q) :=
  match c.fault with
  | none => respond c q w
  | some message => if Call.fallible q then refuse (.failure message) w else none

def env : Prog.Env Call Answer Thrown World := fun w q r w' => ∃ c, answer c q w = some (r, w')

theorem env_iff {w w' : World} {q : Call} {r : Except Thrown (Answer q)} :
    env w q r w' ↔
      (Call.fallible q = true ∧ (∃ message, r = .error (.failure message)) ∧ w' = w) ∨
        ∃ c, c.fault = none ∧ respond c q w = some (r, w') := by
  constructor
  · rintro ⟨c, hc⟩
    unfold answer at hc
    cases hf : c.fault with
    | none =>
      rw [hf] at hc
      exact .inr ⟨c, hf, hc⟩
    | some message =>
      rw [hf] at hc
      by_cases hq : Call.fallible q = true
      · simp only [hq, if_true, refuse, Option.some.injEq, Prod.mk.injEq] at hc
        exact .inl ⟨hq, ⟨message, hc.1.symm⟩, hc.2.symm⟩
      · simp [hq] at hc
  · rintro (⟨hq, ⟨message, hr⟩, hw⟩ | ⟨c, hf, hc⟩)
    · exact ⟨{ fault := some message }, by simp [answer, hq, refuse, hr, hw]⟩
    · exact ⟨c, by simp [answer, hf, hc]⟩

end BaasConnector.Connector.Database
