import BaasConnector.Ledger.MemoryStore

namespace BaasConnector.Ledger.Outcomes

open BaasConnector.Lib.Effects BaasConnector.Lib.Keyed BaasConnector.Ledger.Types
open BaasConnector.Ledger.Engine BaasConnector.Ledger.MemoryStore

/-- The inputs that a pending transaction is resolved with: its own entries. -/
def pendingInputs (s : LedgerStore) (id : String) : List LedgerEntryInput :=
  (s.entriesOf id).map (·.toLedgerEntryInput)

def resolvePhase (commit : Bool) : EntryPhase := if commit then .POSTED else .VOID

def resolveEntries (mint : Mint) (id : String) (options : ResolveOptions) (commit : Bool)
    (pending : LedgerTransaction) (s : LedgerStore) :
    Except LedgerThrown (List LedgerEntry × Accounts) :=
  buildEntries mint (resolution mint id options commit pending) (resolvePhase commit)
    (resolveDelta commit) 0 (pendingInputs s id) (s.lockAccounts (lockOrder (pendingInputs s id)))

def postEntries (mint : Mint) (input : PostTransactionInput) (debits : Int) (s : LedgerStore) :
    Except LedgerThrown (List LedgerEntry × Accounts) :=
  buildEntries mint (postedTransaction mint input debits) input.phase.entryPhase
    (deltaFor input.phase) 0 input.entries (s.lockAccounts (lockOrder input.entries))

/-- The ledger after a pending transaction is resolved. -/
def resolved (mint : Mint) (id : String) (options : ResolveOptions) (commit : Bool)
    (pending : LedgerTransaction) (entries : List LedgerEntry) (accounts : Accounts)
    (s : LedgerStore) : LedgerStore :=
  (s.persist (resolution mint id options commit pending) entries accounts.values).persist
    (resolvedPending mint commit pending) [] []

theorem resolvePending_run (mint : Mint) (id : String) (options : ResolveOptions) (commit : Bool)
    (s : LedgerStore) :
    runExclusive (resolvePending mint id options commit) s =
      match s.findByIdempotencyKey options.idempotencyKey with
      | some existing => (.ok { existing with replayed := true }, s)
      | none =>
        match s.transactions.get id with
        | none => (.error (.validation s!"Transacao pendente {id} nao encontrada"), s)
        | some pending =>
          let text := pending.status.text
          if pending.status ≠ .PENDING then
            (.error (.validation s!"Transacao {id} esta {text}; so PENDING pode ser resolvida"), s)
          else
            match resolveEntries mint id options commit pending s with
            | .error e => (.error e, s)
            | .ok (entries, accounts) =>
              (.ok ⟨resolution mint id options commit pending, entries, false⟩,
                resolved mint id options commit pending entries accounts s) := by
  unfold runExclusive resolvePending
  rw [Prog.bind_eq, eval_findByIdempotencyKey]
  cases hk : s.findByIdempotencyKey options.idempotencyKey with
  | some existing => rfl
  | none =>
    simp only [Prog.bind_eq]
    rw [eval_findTransaction]
    cases ht : s.transactions.get id with
    | none => rfl
    | some pending =>
      by_cases hp : pending.status = .PENDING
      · simp only [hp, ne_eq, not_true_eq_false, if_false]
        rw [eval_findEntriesByTransaction, eval_lockAccounts, eval_ofExcept]
        cases hb : resolveEntries mint id options commit pending s with
        | error e =>
          simp only [resolveEntries, pendingInputs, resolvePhase] at hb
          rw [hb]
        | ok b =>
          simp only [resolveEntries, pendingInputs, resolvePhase] at hb
          rw [hb]
          rfl
      · simp only [ne_eq, hp, not_false_eq_true, if_true]
        rfl

theorem post_run (mint : Mint) (input : PostTransactionInput) (s : LedgerStore) :
    runExclusive (post mint input) s =
      match s.findByIdempotencyKey input.idempotencyKey with
      | some existing => (.ok { existing with replayed := true }, s)
      | none =>
        match assertBalanced input.entries with
        | .error e => (.error e, s)
        | .ok debits =>
          match assertAccountsExist input.entries (s.lockAccounts (lockOrder input.entries)) with
          | .error e => (.error e, s)
          | .ok _ =>
            match postEntries mint input debits s with
            | .error e => (.error e, s)
            | .ok (entries, accounts) =>
              (.ok ⟨postedTransaction mint input debits, entries, false⟩,
                s.persist (postedTransaction mint input debits) entries accounts.values) := by
  unfold runExclusive post
  rw [Prog.bind_eq, eval_findByIdempotencyKey]
  cases hk : s.findByIdempotencyKey input.idempotencyKey with
  | some existing => rfl
  | none =>
    simp only [Prog.bind_eq]
    rw [eval_ofExcept]
    cases assertBalanced input.entries with
    | error e => rfl
    | ok debits =>
      simp only
      rw [eval_lockAccounts, eval_ofExcept]
      cases assertAccountsExist input.entries (s.lockAccounts (lockOrder input.entries)) with
      | error e => rfl
      | ok u =>
        simp only
        rw [eval_ofExcept]
        cases hb : postEntries mint input debits s with
        | error e =>
          simp only [postEntries] at hb
          rw [hb]
        | ok b =>
          simp only [postEntries] at hb
          rw [hb]
          rfl

end BaasConnector.Ledger.Outcomes

namespace BaasConnector.Ledger.Shadow

open BaasConnector.Lib.Keyed BaasConnector.Taxonomy.Errors BaasConnector.Ledger.Types
open BaasConnector.Ledger.Engine BaasConnector.Ledger.MemoryStore

/-- The operations of the shadow ledger. Each one runs in a callback that has
the ledger to itself. -/
inductive LedgerCommand
  | authorizeOut (availableId : String) (amountCents : Int) (idempotencyKey : String)
      (externalRef : Option String)
  | settleOut (pendingTransactionId idempotencyKey : String)
  | voidOut (pendingTransactionId idempotencyKey : String)
  | creditIn (availableId : String) (amountCents : Int) (idempotencyKey : String)
      (externalRef : Option String)
  | adjust (availableId : String) (amountCents : Int) (credit : Bool) (idempotencyKey : String)
      (externalRef : Option String)
deriving DecidableEq, Repr

def externalWorldCode : String := "9000"

def customerAvailableCode (accountId : String) : String := "2000." ++ accountId

def customerBlockedCode (accountId : String) : String := "2100." ++ accountId

/-- Two entries of one amount, from one account to the other. -/
def transferInput (type : LedgerTransactionType) (phase : PostPhase) (debitId creditId : String)
    (amountCents : Int) (idempotencyKey : String) (externalRef : Option String) (now : Int) :
    PostTransactionInput :=
  { id := none
    type := type
    phase := phase
    idempotencyKey := idempotencyKey
    entries := [⟨debitId, .DEBIT, amountCents⟩, ⟨creditId, .CREDIT, amountCents⟩]
    currency := none
    externalRef := externalRef
    description := none
    effectiveAt := some now
    metadata := none }

/-- `InsufficientFundsError` turns into the canonical code; any other error of
the engine passes through. -/
def LedgerThrown.toThrown : LedgerThrown → Thrown
  | .insufficientFunds .. =>
    .baas { code := .INSUFFICIENT_FUNDS, message := "Saldo insuficiente para esta operacao." }
  | .unbalanced debits credits =>
    .baas
      { code := .LEDGER_UNBALANCED
        message := s!"Transacao desbalanceada: debitos {debits} e creditos {credits}" }
  | .validation message => .baas { code := .VALIDATION_ERROR, message }
  | .failure message => .failure message

def run (p : StoreProg PostTransactionResult) (s : LedgerStore) :
    Except Thrown PostTransactionResult × LedgerStore :=
  match runExclusive p s with
  | (.ok result, s') => (.ok result, s')
  | (.error e, s') => (.error (LedgerThrown.toThrown e), s')

def withExternal (s : LedgerStore)
    (f : String → Except Thrown PostTransactionResult × LedgerStore) :
    Except Thrown PostTransactionResult × LedgerStore :=
  match s.accountIdByCode externalWorldCode with
  | some externalId => f externalId
  | none =>
    (.error (.baas
      { code := .INTERNAL_ERROR
        message := s!"A conta de razao {externalWorldCode} nao foi semeada." }), s)

def LedgerCommand.perform (mint : Mint) (s : LedgerStore) :
    LedgerCommand → Except Thrown PostTransactionResult × LedgerStore
  | .authorizeOut availableId amountCents idempotencyKey externalRef =>
    withExternal s fun externalId =>
      run (post mint (transferInput .PIX_OUT_AUTHORIZE .PENDING availableId externalId amountCents
        idempotencyKey externalRef mint.now)) s
  | .settleOut pendingTransactionId idempotencyKey =>
    run (commitPending mint pendingTransactionId ⟨idempotencyKey, some .PIX_OUT_SETTLE⟩) s
  | .voidOut pendingTransactionId idempotencyKey =>
    run (voidPending mint pendingTransactionId ⟨idempotencyKey, some .PIX_OUT_VOID⟩) s
  | .creditIn availableId amountCents idempotencyKey externalRef =>
    withExternal s fun externalId =>
      run (post mint (transferInput .PIX_IN_RECEIVE .POSTED externalId availableId amountCents
        idempotencyKey externalRef mint.now)) s
  | .adjust availableId amountCents credit idempotencyKey externalRef =>
    withExternal s fun externalId =>
      run (post mint (transferInput .RECONCILIATION_ADJUSTMENT .POSTED
        (if credit then externalId else availableId) (if credit then availableId else externalId)
        amountCents idempotencyKey externalRef mint.now)) s

/-- Open the account of a code, or find the one that is there. -/
def ensureAccount (s : LedgerStore) (code id : String) : String × LedgerStore :=
  match s.accountIdByCode code with
  | some existing => (existing, s)
  | none =>
    (id, s.createAccount
      { id, code, normalBalance := .CREDIT, allowsNegative := false, debitsPosted := 0,
        creditsPosted := 0, debitsPending := 0, creditsPending := 0, entryCount := 0, version := 0 })

end BaasConnector.Ledger.Shadow
