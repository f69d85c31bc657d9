import BaasConnector.Connector.Replies
import BaasConnector.Pix.Transfers
import BaasConnector.Webhooks.Apply

namespace BaasConnector.Pix.HoldResolution

open BaasConnector.Lib.Effects BaasConnector.Taxonomy.Status BaasConnector.Taxonomy.Errors
open BaasConnector.Ledger.Types BaasConnector.Ledger.Engine BaasConnector.Ledger.MemoryStore
open BaasConnector.Ledger.Shadow BaasConnector.Ledger.Holds BaasConnector.Ledger.Outcomes
open BaasConnector.Connector.Records BaasConnector.Connector.Calls BaasConnector.Connector.Database
open BaasConnector.Connector.Replies BaasConnector.Pix.OperationReconciler
open BaasConnector.Webhooks.Apply

/-- Which way a status resolves a hold, if it resolves one. -/
def resolves (status : TransactionStatus) : Option Bool :=
  if isSettled status then some true else if isFailed status then some false else none

def resolveKey (commit : Bool) (id : String) : String :=
  (if commit then "pix-out-settle:" else "pix-out-void:") ++ id

/-- The ledger side of a provider status, shared by webhook and reconciler. They
differ in the id that goes into the key. -/
def holdResolution (hold : Option String) (status : TransactionStatus) (id : String) :
    Flow (Option String) :=
  match hold, resolves status with
  | some hold, some commit =>
    (ask (.ledger (resolveCommand commit hold (resolveKey commit id)))).bind fun resolved =>
      .pure (some resolved.transaction.id)
  | _, _ => .pure none

theorem resolveEventHold_eq (existing : TransactionRecord) (incoming : TransactionStatus) :
    resolveEventHold existing incoming =
      holdResolution existing.ledgerPendingTransactionId incoming existing.id := by
  unfold resolveEventHold holdResolution resolves
  cases existing.ledgerPendingTransactionId with
  | none => rfl
  | some hold => by_cases hs : isSettled incoming = true <;> by_cases hf : isFailed incoming = true <;>
      simp [hs, hf, resolveCommand, resolveKey]

theorem resolveHold_eq (operation : OperationRecord) (transaction : TransactionRecord)
    (status : TransactionStatus) :
    resolveHold operation transaction status =
      holdResolution transaction.ledgerPendingTransactionId status operation.id := by
  unfold resolveHold holdResolution resolves
  cases transaction.ledgerPendingTransactionId with
  | none => rfl
  | some hold => by_cases hs : isSettled status = true <;> by_cases hf : isFailed status = true <;>
      simp [hs, hf, resolveCommand, resolveKey]

/-- The engine takes up the resolution that a status asks for. -/
def ResolvesHold (s : LedgerStore) (hold : Option String) (status : TransactionStatus)
    (id : String) : Prop :=
  ∃ h commit, hold = some h ∧ resolves status = some commit ∧
    Resolvable s h (resolveKey commit id) commit

instance (s : LedgerStore) (hold : Option String) (status : TransactionStatus) (id : String) :
    Decidable (ResolvesHold s hold status id) :=
  decidable_of_iff (∃ h ∈ hold, ∃ commit ∈ resolves status,
    Resolvable s h (resolveKey commit id) commit) (by simp [ResolvesHold])

variable {w : World} {hold : Option String} {status : TransactionStatus} {id : String}

theorem wp_holdResolution_unchanged (h : ¬ ResolvesHold w.ledger hold status id) :
    (holdResolution hold status id).wp env (fun _ w' => w' = w) w := by
  unfold holdResolution
  cases hold with
  | none => exact rfl
  | some hold =>
    cases hr : resolves status with
    | none => exact rfl
    | some commit =>
      have hn : ¬ Resolvable w.ledger hold (resolveKey commit id) commit :=
        fun hc => h ⟨hold, commit, rfl, hr, hc⟩
      simp only [Prog.wp_bind, Prog.wp_perform]
      intro r w' he
      have hw : w' = w := by
        obtain ⟨_, hw⟩ | ⟨mint, _, _, hw⟩ := env_ledger_command.mp he
        · exact hw
        · rw [hw, perform_resolve_unchanged hn]
      cases r <;> exact hw

theorem holdResolution_meets {rely : (q : Call) → Except Thrown (Answer q) → Prop} {guar : Call → Prop}
    (h : ∀ command, guar (.ledger command)) (hold : Option String) (status : TransactionStatus)
    (id : String) : (holdResolution hold status id).Meets rely guar fun _ => True := by
  unfold holdResolution
  cases hold with
  | none => trivial
  | some hold =>
    cases resolves status with
    | none => trivial
    | some commit => simp [h]

theorem resolvedPending_status (mint : Mint) (commit : Bool) (pending : LedgerTransaction) :
    (resolvedPending mint commit pending).status ≠ .PENDING := by
  cases commit <;> simp [resolvedPending]

/-- The run of a resolution that the engine takes up. -/
theorem may_holdResolution_resolved (h : ResolvesHold w.ledger hold status id) :
    (holdResolution hold status id).may env
      (fun r w' => (∃ posted, r = .ok posted) ∧
        ∃ h, holdStatus w.ledger h = some .PENDING ∧ holdStatus w'.ledger h ≠ some .PENDING) w := by
  obtain ⟨hold, commit, rfl, hr, hc⟩ := h
  obtain ⟨mint, hm⟩ := exists_fresh_mint w
  obtain ⟨pending, entries, accounts, hp, hst, hrun⟩ := perform_resolve_resolvable mint hc
  simp only [holdResolution, hr, Prog.may_bind, Prog.may_perform]
  refine ⟨_, _, env_ledger_command.mpr (.inr ⟨mint, hm, rfl, rfl⟩), ?_⟩
  rw [hrun]
  refine ⟨⟨_, rfl⟩, hold, hc.2.1, ?_⟩
  simpa [holdStatus, resolved_transactions hp] using resolvedPending_status mint commit pending

section Sample

open BaasConnector.Pix.Transfers

def sampleProvider : BoundProvider := ⟨"MOCK_BANK", true, true, true, true, true, true, true⟩

def sampleAccount : AccountRecord :=
  { id := "acc_1", provider := "MOCK_BANK", providerConnectionId := "con_1"
    providerAccountId := some "pac_1", externalId := none, status := .ACTIVE, lastEventAt := none
    ledgerAvailableAccountId := some "lac_1" }

def sampleMint (id : String) : Mint := ⟨id, fun index => id ++ toString index, 0⟩

/-- The external world and one customer, with 100.00 credited to the customer. -/
def fundedLedger : LedgerStore :=
  let external : LedgerAccount :=
    { id := "lac_0", code := externalWorldCode, normalBalance := .DEBIT, allowsNegative := true
      debitsPosted := 0, creditsPosted := 0, debitsPending := 0, creditsPending := 0
      entryCount := 0, version := 0 }
  let opened := (ensureAccount (LedgerStore.empty.createAccount external)
    (customerAvailableCode "acc_1") "lac_1").2
  ((LedgerCommand.creditIn "lac_1" 10000 "pix-in:ptx_0" none).perform (sampleMint "ltx_0") opened).2

/-- The funded ledger with a hold of 60.00 for the operation `opr_1`. -/
def heldLedger : LedgerStore :=
  ((LedgerCommand.authorizeOut "lac_1" 6000 "pix-out:opr_1" (some "opr_1")).perform
    (sampleMint "ltx_1") fundedLedger).2

def sampleTransfer : Transfer :=
  ⟨⟨"con_1", some "opr_1"⟩, sampleAccount, "MOCK_BANK", ⟨6000, none, none⟩, "opr_1"⟩

def sampleWorld (ledger : LedgerStore) : World :=
  { minted := [], accounts := Lib.Keyed.Rows.empty.put sampleAccount, transactions := .empty
    operations := .empty, idempotency := .empty, ledger, payments := [], events := .empty
    breaks := .empty, items := .empty, provider := sampleProvider, calendar := fun _ => "2026-01-01" }

/-- A transfer that the provider answered with this status, by our clock at 1000. -/
def sentTransfer (status : TransactionStatus) : TransactionRecord :=
  storedTransaction (sentDraft sampleTransfer "txn_1" ⟨"ptx_1", some "E1", status, none, none⟩
    (some "ltx_1") 1000)

def sentWorld (status : TransactionStatus) : World :=
  { sampleWorld heldLedger with transactions := Lib.Keyed.Rows.empty.put (sentTransfer status) }

/-- The transfer with an unknown outcome, as it is stored. -/
def unknownTransaction : TransactionRecord :=
  storedTransaction (Transfers.draft sampleTransfer "txn_1" .UNKNOWN (some "ltx_1") 1000)

def unknownTransfer : OperationRecord := unknownOperation sampleTransfer "txn_1" 1000

def unknownWorld : World :=
  { sampleWorld heldLedger with
    transactions := Lib.Keyed.Rows.empty.put unknownTransaction
    operations := Lib.Keyed.Rows.empty.put unknownTransfer }

end Sample

end BaasConnector.Pix.HoldResolution
