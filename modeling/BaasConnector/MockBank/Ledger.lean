import BaasConnector.Ledger.BalanceChange
import BaasConnector.Ledger.Stamped
import BaasConnector.Lib.Results
import BaasConnector.Lib.Runs
import BaasConnector.Taxonomy.Status

namespace BaasConnector.MockBank.Errors

open BaasConnector.Taxonomy.Status

structure MockBankError where
  errorCode : String
  message : String
  status : Nat
  details : Option (String × String)
deriving DecidableEq, Repr

def statusText : AccountStatus → String
  | .DRAFT => "DRAFT"
  | .PENDING_ONBOARDING => "PENDING_ONBOARDING"
  | .PENDING_DOCUMENTS => "PENDING_DOCUMENTS"
  | .UNDER_REVIEW => "UNDER_REVIEW"
  | .ACTIVE => "ACTIVE"
  | .BLOCKED => "BLOCKED"
  | .SUSPENDED => "SUSPENDED"
  | .REJECTED => "REJECTED"
  | .CLOSING => "CLOSING"
  | .CLOSED => "CLOSED"

namespace MockBankError

def insufficientFunds (availableCents : Int) : MockBankError :=
  ⟨"MB-SALDO-001", "Saldo insuficiente para a operacao.", 400,
    some ("available_cents", toString availableCents)⟩

def accountNotFound (id : String) : MockBankError :=
  ⟨"MB-CONTA-404", s!"Conta {id} nao encontrada.", 404, none⟩

def accountNotActive (status : AccountStatus) : MockBankError :=
  let text := statusText status
  ⟨"MB-CONTA-002", s!"Conta com status {text} nao pode movimentar.", 400, none⟩

def transactionNotFound (id : String) : MockBankError :=
  ⟨"MB-TX-404", s!"Transacao {id} nao encontrada.", 404, none⟩

def refundWindowExpired (days : Int) : MockBankError :=
  ⟨"MB-DEVOL-001", s!"Janela de devolucao de {days} dias ja encerrada.", 422, none⟩

def refundExceedsOriginal : MockBankError :=
  ⟨"MB-DEVOL-002", "Soma das devolucoes excede o valor da transacao original.", 422, none⟩

def limitExceeded (limitCents : Int) : MockBankError :=
  ⟨"MB-LIMITE-001", "Limite de transacao excedido.", 422, some ("limit_cents", toString limitCents)⟩

def injected : MockBankError :=
  ⟨"MB-CHAOS-500", "Falha injetada pelo painel de controle do Mock Bank.", 500, none⟩

end MockBankError

end BaasConnector.MockBank.Errors

namespace BaasConnector.MockBank.Ledger

open BaasConnector.MockBank.Errors
open BaasConnector.Lib.Keyed BaasConnector.Lib.Results BaasConnector.Lib.Runs BaasConnector.Lib.Stamps
open BaasConnector.Ledger.Types BaasConnector.Ledger.Engine BaasConnector.Ledger.MemoryStore
open BaasConnector.Ledger.Outcomes BaasConnector.Ledger.Shadow BaasConnector.Ledger.Adjustments
open BaasConnector.Ledger.Invariants BaasConnector.Ledger.Books BaasConnector.Ledger.ChartOfAccounts
open BaasConnector.Ledger.Reachable BaasConnector.Ledger.Calls BaasConnector.Ledger.Consistency
open BaasConnector.Ledger.Availability BaasConnector.Ledger.Movements BaasConnector.Ledger.Stamped

structure CreditOptions where
  ledgerAccountId : String
  amountCents : Int
  idempotencyKey : String
  externalRef : Option String
  description : Option String
deriving DecidableEq, Repr

structure AuthorizeOptions where
  ledgerAccountId : String
  amountCents : Int
  feeCents : Int
  idempotencyKey : String
  externalRef : Option String
deriving DecidableEq, Repr

structure SettleOptions where
  pendingTransactionId : String
  amountCents : Int
  idempotencyKey : String
deriving DecidableEq, Repr

structure VoidOptions where
  pendingTransactionId : String
  idempotencyKey : String
deriving DecidableEq, Repr

structure RefundOptions where
  ledgerAccountId : String
  amountCents : Int
  idempotencyKey : String
  externalRef : Option String
deriving DecidableEq, Repr

structure BlockOptions where
  availableLedgerAccountId : String
  blockedLedgerAccountId : String
  amountCents : Int
  idempotencyKey : String
  unblock : Bool
deriving DecidableEq, Repr

/-- What the service runs with the store to itself. A settlement does so twice. -/
inductive LedgerCall
  | creditFromExternal (options : CreditOptions)
  | authorizePixOut (options : AuthorizeOptions)
  | settlePixOut (options : SettleOptions)
  | settleExternal (options : SettleOptions)
  | voidPixOut (options : VoidOptions)
  | postRefund (options : RefundOptions)
  | blockFunds (options : BlockOptions)
deriving DecidableEq, Repr

def byCode (s : LedgerStore) (code : String) : Except LedgerThrown String :=
  match s.accountIdByCode code with
  | some id => .ok id
  | none => .error (.failure s!"Conta de razao com codigo {code} nao existe")

/-- A posting as the service asks for it: the engine dates it. -/
def posting (type : LedgerTransactionType) (phase : PostPhase) (idempotencyKey : String)
    (entries : List LedgerEntryInput) (externalRef description : Option String) : PostTransactionInput where
  id := none
  type := type
  phase := phase
  idempotencyKey := idempotencyKey
  entries := entries
  currency := none
  externalRef := externalRef
  description := description
  effectiveAt := none
  metadata := none

def creditFromExternal (s : LedgerStore) (options : CreditOptions) :
    Except LedgerThrown PostTransactionInput := do
  let external ← byCode s externalWorldCode
  return posting .PIX_IN_RECEIVE .POSTED options.idempotencyKey
    [⟨external, .DEBIT, options.amountCents⟩, ⟨options.ledgerAccountId, .CREDIT, options.amountCents⟩]
    options.externalRef options.description

def authorizePixOut (s : LedgerStore) (options : AuthorizeOptions) :
    Except LedgerThrown PostTransactionInput := do
  let clearing ← byCode s pixOutClearingCode
  let entries : List LedgerEntryInput :=
    [⟨options.ledgerAccountId, .DEBIT, options.amountCents + options.feeCents⟩,
      ⟨clearing, .CREDIT, options.amountCents⟩]
  if 0 < options.feeCents then
    let fees ← byCode s feeRevenueCode
    return posting .PIX_OUT_AUTHORIZE .PENDING options.idempotencyKey
      (entries ++ [⟨fees, .CREDIT, options.feeCents⟩]) options.externalRef none
  else
    return posting .PIX_OUT_AUTHORIZE .PENDING options.idempotencyKey entries options.externalRef none

/-- The second leg of a settlement, which clears against the rest of the world. -/
def settleExternal (s : LedgerStore) (options : SettleOptions) :
    Except LedgerThrown PostTransactionInput := do
  let clearing ← byCode s pixOutClearingCode
  let external ← byCode s externalWorldCode
  return posting .PIX_OUT_SETTLE .POSTED (options.idempotencyKey ++ "-external")
    [⟨clearing, .DEBIT, options.amountCents⟩, ⟨external, .CREDIT, options.amountCents⟩] none none

def postRefund (s : LedgerStore) (options : RefundOptions) : Except LedgerThrown PostTransactionInput := do
  let external ← byCode s externalWorldCode
  return posting .PIX_REFUND_OUT .POSTED options.idempotencyKey
    [⟨options.ledgerAccountId, .DEBIT, options.amountCents⟩, ⟨external, .CREDIT, options.amountCents⟩]
    options.externalRef none

def blockFunds (options : BlockOptions) : PostTransactionInput :=
  let source := if options.unblock then options.blockedLedgerAccountId
    else options.availableLedgerAccountId
  let target := if options.unblock then options.availableLedgerAccountId
    else options.blockedLedgerAccountId
  posting (if options.unblock then .UNBLOCK_FUNDS else .BLOCK_FUNDS) .POSTED options.idempotencyKey
    [⟨source, .DEBIT, options.amountCents⟩, ⟨target, .CREDIT, options.amountCents⟩] none none

def LedgerCall.engineCall (s : LedgerStore) (mint : Mint) : LedgerCall → Except LedgerThrown EngineCall
  | .creditFromExternal options => (Ledger.creditFromExternal s options).map (.post mint)
  | .authorizePixOut options => (Ledger.authorizePixOut s options).map (.post mint)
  | .settlePixOut options => .ok (.commitPending mint options.pendingTransactionId
      ⟨options.idempotencyKey, some .PIX_OUT_SETTLE⟩)
  | .settleExternal options => (Ledger.settleExternal s options).map (.post mint)
  | .voidPixOut options => .ok (.voidPending mint options.pendingTransactionId
      ⟨options.idempotencyKey, some .PIX_OUT_VOID⟩)
  | .postRefund options => (Ledger.postRefund s options).map (.post mint)
  | .blockFunds options => .ok (.post mint (Ledger.blockFunds options))

/-- What the service throws: the bank's own errors, or what the engine threw. -/
inductive Thrown
  | bank (e : MockBankError)
  | ledger (e : LedgerThrown)
deriving DecidableEq, Repr

def Thrown.of : LedgerThrown → Thrown
  | .insufficientFunds _ _ available => .bank (.insufficientFunds available)
  | e => .ledger e

def run (s : LedgerStore) (mint : Mint) (c : LedgerCall) :
    Except Thrown PostTransactionResult × LedgerStore :=
  match c.engineCall s mint with
  | .error e => (.error (.of e), s)
  | .ok call => (((call.run s).1).mapError .of, (call.run s).2)

/-- The posted balance of an account at an instant, as its last settled entry has it. -/
def balanceAsOf (s : LedgerStore) (ledgerAccountId : String) (instant : Int) : Int :=
  let anteriores := ((allEntries s).filter fun entry => entry.accountId = ledgerAccountId ∧
    entry.phase ≠ .PENDING ∧ entry.effectiveAt ≤ instant).insertionSort earlier
  ((anteriores.getLast?).map (·.resultingPostedCents)).getD 0

/-- What the posted entries of an account until an instant add up to. -/
def postedUpTo (s : LedgerStore) (account : LedgerAccount) (instant : Int) : Int :=
  (((allEntries s).filter fun entry => entry.accountId = account.id ∧ entry.phase = .POSTED ∧
    entry.effectiveAt ≤ instant).map fun entry =>
      signedFor account.normalBalance entry.toLedgerEntryInput).sum

/-- What changes the ledger: new accounts of a customer, and the calls of the service. -/
inductive LedgerStep
  | openCustomerAccounts (availableId blockedId accountId : String)
  | call (mint : Mint) (c : LedgerCall)

namespace LedgerStep

/-- The call of the engine that a step comes to. -/
def engineCall (s : LedgerStore) : LedgerStep → Option EngineCall
  | .openCustomerAccounts .. => none
  | .call mint c => (c.engineCall s mint).toOption

def perform (s : LedgerStore) : LedgerStep → LedgerStore
  | .openCustomerAccounts availableId blockedId accountId =>
    (Operation.openCustomerAccounts availableId blockedId accountId).perform s
  | .call mint c => (run s mint c).2

/-- The ids that a step gives out are not in use. -/
def Fresh (s : LedgerStore) (step : LedgerStep) : Prop :=
  match step with
  | .openCustomerAccounts availableId blockedId accountId =>
    (Operation.openCustomerAccounts availableId blockedId accountId).Fresh s
  | .call .. => ∀ call ∈ step.engineCall s, call.Fresh s

instance (s : LedgerStore) : (step : LedgerStep) → Decidable (step.Fresh s)
  | .openCustomerAccounts availableId blockedId accountId =>
    inferInstanceAs (Decidable ((Operation.openCustomerAccounts availableId blockedId accountId).Fresh s))
  | .call mint c =>
    inferInstanceAs (Decidable (∀ call ∈ (LedgerStep.call mint c).engineCall s, call.operation.Fresh s))

end LedgerStep

/-- Every balance of the past is the sum of the entries posted until then. -/
def Explained (s : LedgerStore) : Prop :=
  ∀ account ∈ allAccounts s, ∀ instant, balanceAsOf s account.id instant = postedUpTo s account instant

/-- What the step settles, it settles in order on every account. -/
def InOrder (s : LedgerStore) (step : LedgerStep) : Prop :=
  ∀ call ∈ step.engineCall s, ∀ account ∈ allAccounts s,
    SettlesInOrder s call account.id account.normalBalance

instance (s : LedgerStore) (step : LedgerStep) : Decidable (InOrder s step) :=
  inferInstanceAs (Decidable (∀ call ∈ step.engineCall s, ∀ account ∈ allAccounts s,
    SettlesInOrder s call account.id account.normalBalance))

variable {s : LedgerStore} {step : LedgerStep} {account : LedgerAccount} {k : String}

theorem balanceAsOf_eq (s : LedgerStore) (ledgerAccountId : String) (instant : Int) :
    balanceAsOf s ledgerAccountId instant = reading earlier (·.effectiveAt) (·.resultingPostedCents)
      (settledEntries s ledgerAccountId) instant := by
  have hfilter : (allEntries s).filter (fun entry => entry.accountId = ledgerAccountId ∧
      entry.phase ≠ .PENDING ∧ entry.effectiveAt ≤ instant) =
      upTo (·.effectiveAt) (settledEntries s ledgerAccountId) instant := by
    rw [upTo, settledEntries, List.filter_filter]
    refine List.filter_congr fun e _ => ?_
    rw [← Bool.decide_and]
    exact decide_eq_decide.mpr ⟨fun h => ⟨h.2.2, h.1, h.2.1⟩, fun h => ⟨h.2.1, h.2.2, h.1⟩⟩
  rw [balanceAsOf, hfilter, getLast?_insertionSort, reading]

theorem postedUpTo_eq (s : LedgerStore) (account : LedgerAccount) (instant : Int) :
    postedUpTo s account instant = total (postedChange account.normalBalance)
      (upTo (·.effectiveAt) (settledEntries s account.id) instant) := by
  have hfilter : (upTo (·.effectiveAt) (settledEntries s account.id) instant).filter (·.phase = .POSTED) =
      (allEntries s).filter fun entry => entry.accountId = account.id ∧ entry.phase = .POSTED ∧
        entry.effectiveAt ≤ instant := by
    rw [upTo, settledEntries, List.filter_filter, List.filter_filter]
    refine List.filter_congr fun e _ => ?_
    cases e.phase <;> simp [Bool.and_comm]
  rw [total_postedChange, hfilter, List.map_map]
  rfl

theorem explained_iff : Explained s ↔
    ∀ account ∈ allAccounts s, BalanceExplained s account.id account.normalBalance := by
  unfold Explained BalanceExplained Lib.Stamps.Explained
  simp only [balanceAsOf_eq, postedUpTo_eq]

/-- The books of a ledger in use. -/
structure Kept (s : LedgerStore) : Prop where
  sound : Sound s
  indexed : Indexed s

theorem newStore_kept {newId : Nat → String}
    (hids : ((List.range singletonAccounts.length).map newId).Nodup) : Kept (newStore newId) :=
  ⟨newStore_sound hids, newStore_indexed newId⟩

theorem run_eq {mint : Mint} {c : LedgerCall} {call : EngineCall}
    (hcall : (LedgerStep.call mint c).engineCall s = some call) : (run s mint c).2 = (call.run s).2 := by
  have h : c.engineCall s mint = .ok call := toOption_eq_some.mp hcall
  rw [run, h]

theorem run_none {mint : Mint} {c : LedgerCall}
    (hcall : (LedgerStep.call mint c).engineCall s = none) : (run s mint c).2 = s := by
  obtain ⟨e, h⟩ := toOption_eq_none.mp hcall
  rw [run, h]

theorem call_kept {call : EngineCall} (h : Kept s) (hfresh : call.Fresh s) : Kept (call.run s).2 :=
  ⟨run_sound h.sound hfresh, (run_outcome s call).indexed h.indexed hfresh⟩

theorem perform_kept (h : Kept s) (hfresh : step.Fresh s) : Kept (step.perform s) := by
  cases step with
  | openCustomerAccounts availableId blockedId accountId =>
    have hopened : (Operation.openCustomerAccounts availableId blockedId accountId).Fresh s := hfresh
    exact ⟨perform_sound h.sound hopened, (perform_indexed h.indexed hopened).1⟩
  | call mint c =>
    cases hcall : (LedgerStep.call mint c).engineCall s with
    | none =>
      rw [LedgerStep.perform, run_none hcall]
      exact h
    | some call =>
      rw [LedgerStep.perform, run_eq hcall]
      exact call_kept h (hfresh call hcall)

/-- Calls open no accounts. -/
theorem run_account {call : EngineCall} {b : LedgerAccount} (hb : (call.run s).2.accounts.get k = some b) :
    ∃ a, s.accounts.get k = some a ∧ b.normalBalance = a.normalBalance := by
  have ho := run_outcome s call
  generalize (call.run s).1 = r, (call.run s).2 = s' at ho hb
  cases ho with
  | failed => exact ⟨b, hb, rfl⟩
  | replayed => exact ⟨b, hb, rfl⟩
  | posted mint input debits es after hkey hbalanced hbuilt =>
    obtain ⟨a, ha, hm⟩ := BaasConnector.Ledger.Counters.setAccounts_moved
      (BaasConnector.Ledger.Holds.deltas_of_buildEntries _ _ _ _ _ _ _ _ _ hbuilt).1 hb
    exact ⟨a, ha, hm.normalBalance⟩
  | resolved mint id options commit pending es after hkey hget hpending hbuilt =>
    obtain ⟨a, ha, hm⟩ := BaasConnector.Ledger.Counters.setAccounts_moved
      (BaasConnector.Ledger.Holds.deltas_of_buildEntries _ _ _ _ _ _ _ _ _ hbuilt).1 hb
    exact ⟨a, ha, hm.normalBalance⟩

theorem mem_allAccounts {a : LedgerAccount} : a ∈ allAccounts s ↔ s.accounts.get a.id = some a := by
  constructor
  · exact account_get
  · exact fun h => Table.mem_values.mpr ⟨a.id, h⟩

/-- A new account has nothing on it. -/
theorem settledEntries_new (h : Sound s) (hk : s.accounts.get k = none) : settledEntries s k = [] := by
  refine List.filter_eq_nil_iff.mpr fun e he => ?_
  obtain ⟨es, hes, hin⟩ := List.mem_flatten.mp he
  obtain ⟨id, hid⟩ := entries_get hes
  have hacc := (h.owned id es hid e hin).2.2
  simp only [decide_eq_true_eq]
  rintro ⟨rfl, -⟩
  rw [hk] at hacc
  cases hacc

theorem call_explained {call : EngineCall} (h : Kept s) (hfresh : call.Fresh s)
    (hexplained : Explained s) : Explained (call.run s).2 ↔
      ∀ account ∈ allAccounts s, SettlesInOrder s call account.id account.normalBalance := by
  rw [explained_iff] at hexplained ⊢
  constructor
  · intro hafter a ha
    have hget := mem_allAccounts.mp ha
    have hperformed : ∃ b, (call.operation.perform s).accounts.get a.id = some b ∧
        b.normalBalance = a.normalBalance := perform_account hfresh hget
    obtain ⟨b, hb, hnormal⟩ := hperformed
    rw [EngineCall.perform_operation] at hb
    have hid : b.id = a.id := Rows.key_of_get hb
    have hb' := hafter b (mem_allAccounts.mpr (hid ▸ hb))
    rw [hid, hnormal] at hb'
    exact (call_explained_iff h.sound h.indexed hfresh hget (hexplained a ha)).mp hb'
  · intro horder b hb
    obtain ⟨a, ha, hnormal⟩ := run_account (mem_allAccounts.mp hb)
    have hid : a.id = b.id := Rows.key_of_get ha
    have hmem : a ∈ allAccounts s := mem_allAccounts.mpr (hid ▸ ha)
    rw [hnormal, ← hid]
    exact (call_explained_iff h.sound h.indexed hfresh (hid ▸ ha) (hexplained a hmem)).mpr (horder a hmem)

/-- A step keeps every balance explained just when it settles in order. -/
theorem perform_explained_iff (h : Kept s) (hfresh : step.Fresh s) (hexplained : Explained s) :
    Explained (step.perform s) ↔ InOrder s step := by
  cases step with
  | openCustomerAccounts availableId blockedId accountId =>
    refine ⟨fun _ call hcall => absurd hcall (Option.not_mem_none call), fun _ => ?_⟩
    have hopened : (Operation.openCustomerAccounts availableId blockedId accountId).Fresh s := hfresh
    have hentries : ∀ k, settledEntries ((LedgerStep.openCustomerAccounts availableId blockedId
        accountId).perform s) k = settledEntries s k := fun k =>
      congrArg (fun entries : Table String (List LedgerEntry) => entries.values.flatten.filter _)
        (openCustomerAccounts_eq s availableId blockedId accountId).1
    rw [explained_iff] at hexplained ⊢
    intro b hb
    rw [BalanceExplained, hentries]
    cases hget : s.accounts.get b.id with
    | none =>
      rw [settledEntries_new h.sound hget]
      exact fun _ => rfl
    | some a =>
      obtain ⟨b', hb', hnormal⟩ := perform_account hopened hget
      obtain rfl := Option.some.inj ((mem_allAccounts.mp hb).symm.trans hb')
      have hid : a.id = b.id := Rows.key_of_get hget
      rw [hnormal, ← hid]
      exact hexplained a (mem_allAccounts.mpr (hid ▸ hget))
  | call mint c =>
    unfold InOrder
    cases hcall : (LedgerStep.call mint c).engineCall s with
    | none =>
      rw [LedgerStep.perform, run_none hcall]
      exact ⟨fun _ call hmem => absurd hmem (Option.not_mem_none call), fun _ => hexplained⟩
    | some call =>
      rw [LedgerStep.perform, run_eq hcall, call_explained h (hfresh call hcall) hexplained]
      constructor
      · intro horder call' hmem
        obtain rfl := Option.some.inj hmem
        exact horder
      · intro horder
        exact horder call rfl

theorem newStore_explained (newId : Nat → String) : Explained (newStore newId) := by
  have hnil : ∀ k, settledEntries (newStore newId) k = [] := fun k =>
    congrArg (fun entries : Table String (List LedgerEntry) => entries.values.flatten.filter _)
      (createAll_eq .empty (((List.range singletonAccounts.length).map newId).zip singletonAccounts)).1
  rw [explained_iff]
  intro account _
  rw [BalanceExplained, hnil]
  exact fun _ => rfl

/-- Throughout a run of the mock bank the balance of every account at every instant
is what was posted until then, just when every step settles in order. -/
theorem balance_as_of_sums_iff (newId : Nat → String)
    (hids : ((List.range singletonAccounts.length).map newId).Nodup) (steps : List LedgerStep)
    (hfresh : Each LedgerStep.perform (newStore newId) LedgerStep.Fresh steps) :
    Throughout LedgerStep.perform (newStore newId) Explained steps ↔
      Each LedgerStep.perform (newStore newId) InOrder steps :=
  throughout_iff_each (I := Kept) (fun _ _ h hfresh _ => perform_kept h hfresh)
    (fun _ _ => perform_explained_iff) (newStore_kept hids) (newStore_explained newId) hfresh

def mintAt (transactionId : String) (now : Int) : Mint := ⟨transactionId, fun _ => "le", now⟩

def creditStep (transactionId key : String) (amountCents now : Int) : LedgerStep :=
  .call (mintAt transactionId now) (.creditFromExternal ⟨"c0", amountCents, key, none, none⟩)

def refundStep (transactionId key : String) (amountCents now : Int) : LedgerStep :=
  .call (mintAt transactionId now) (.postRefund ⟨"c0", amountCents, key, none⟩)

/-- A customer receives, pays with a fee and gives back, each at a later instant. -/
def orderlySteps : List LedgerStep :=
  [.openCustomerAccounts "c0" "c1" "acc", creditStep "t0" "in" 100 1,
    .call (mintAt "t1" 2) (.authorizePixOut ⟨"c0", 60, 1, "auth", none⟩),
    .call (mintAt "t2" 3) (.settlePixOut ⟨"t1", 60, "settle"⟩),
    .call (mintAt "t3" 4) (.settleExternal ⟨"t1", 60, "settle"⟩), refundStep "t4" "back" 9 5]

theorem balance_as_of_sums_iff_orderly :
    ((orderlySteps.foldl LedgerStep.perform (newStore sampleId)).accounts.get "c0").map
      (fun account => (computeBalances account).posted) = some 30 ∧
    Throughout LedgerStep.perform (newStore sampleId) Explained orderlySteps :=
  ⟨by decide, (balance_as_of_sums_iff sampleId (by decide) orderlySteps
    (by decide)).mpr (by decide)⟩

/-- A refund of the millisecond of the payment it gives back is not read. -/
theorem refund_of_same_instant_unread :
    let steps := [.openCustomerAccounts "c0" "c1" "acc", creditStep "t0" "in" 100 0,
      refundStep "t1" "back" 30 0]
    let s := steps.foldl LedgerStep.perform (newStore sampleId)
    Each LedgerStep.perform (newStore sampleId) LedgerStep.Fresh steps ∧
      ∃ account ∈ allAccounts s, account.id = "c0" ∧ balanceAsOf s account.id 0 = 100 ∧
        postedUpTo s account 0 = 70 := by
  decide

end BaasConnector.MockBank.Ledger
