import BaasConnector.Lib.Results
import BaasConnector.MockBank.Payments

namespace BaasConnector.MockBank.Statements

open BaasConnector.Lib.Keyed BaasConnector.Lib.Results BaasConnector.Lib.Runs BaasConnector.Lib.Stamps
open BaasConnector.Connector.Records (PaymentDirection)
open BaasConnector.Taxonomy.Status BaasConnector.Ledger.Types BaasConnector.Ledger.Engine
open BaasConnector.Ledger.MemoryStore BaasConnector.Ledger.Outcomes
open BaasConnector.Ledger.Shadow BaasConnector.Ledger.Invariants BaasConnector.Ledger.ChartOfAccounts
open BaasConnector.Ledger.Reachable BaasConnector.Ledger.Calls BaasConnector.Ledger.Consistency
open BaasConnector.Ledger.Holds BaasConnector.Ledger.Atomicity BaasConnector.Ledger.BalanceChange
open BaasConnector.Ledger.Availability BaasConnector.Ledger.Stamped
open BaasConnector.MockBank.Errors BaasConnector.MockBank.Ledger BaasConnector.MockBank.Payments

def signedCents (line : StatementLine) : Int :=
  match line.direction with
  | .incoming => line.amountCents
  | .outgoing => -line.amountCents

/-- The lines of every account in every window explain how its balance changes there. -/
def Explained (localeCompare : String → String → Int) (bank : BankState) : Prop :=
  ∀ account ∈ bank.store.accounts.table.values, ∀ start finish, start ≤ finish →
    ((statementLines localeCompare bank.store account.id start finish).map signedCents).sum =
      balanceAsOf bank.ledger account.availableLedgerAccountId finish -
        balanceAsOf bank.ledger account.availableLedgerAccountId (start - 1)

section Lines

/-- What the lines of a payment add up to. -/
def signedPayment (payment : MockPayment) : Int := ((linesOf payment).map signedCents).sum

def InStatement (payment : MockPayment) : Prop := payment.status ∈ settledForStatement

instance (payment : MockPayment) : Decidable (InStatement payment) :=
  inferInstanceAs (Decidable (_ ∈ settledForStatement))

/-- What a payment adds to the lines of an account until an instant. -/
def statedBy (accountId : String) (t : Int) (payment : MockPayment) : Int :=
  if payment.accountId = accountId ∧ InStatement payment ∧ payment.effectiveAt ≤ t then
    signedPayment payment
  else 0

def linesUpTo (store : MockBankStore) (accountId : String) (t : Int) : Int :=
  store.payments.total (statedBy accountId t)

variable {store : MockBankStore} {accountId : String} {payment : MockPayment} {t : Int}

theorem sum_flatMap {α β : Type} (f : β → Int) (g : α → List β) (l : List α) :
    ((l.flatMap g).map f).sum = (l.map fun a => ((g a).map f).sum).sum := by
  induction l with
  | nil => rfl
  | cons a l ih => rw [List.flatMap_cons, List.map_append, List.sum_append, ih, List.map_cons, List.sum_cons]

theorem sum_sub {α : Type} (f g : α → Int) (l : List α) :
    (l.map fun a => f a - g a).sum = (l.map f).sum - (l.map g).sum := by
  induction l with
  | nil => rfl
  | cons a l ih =>
    rw [List.map_cons, List.sum_cons, ih, List.map_cons, List.sum_cons, List.map_cons, List.sum_cons]
    omega

/-- The lines of a window are those until its end without those before it. -/
theorem statementLines_sum (localeCompare : String → String → Int) (store : MockBankStore)
    (accountId : String) {start finish : Int} (hwindow : start ≤ finish) :
    ((statementLines localeCompare store accountId start finish).map signedCents).sum =
      linesUpTo store accountId finish - linesUpTo store accountId (start - 1) := by
  unfold statementLines
  rw [((List.perm_insertionSort _ _).map signedCents).sum_eq, sum_flatMap, linesUpTo, linesUpTo, Rows.total,
    Rows.total, ← sum_sub]
  refine congrArg List.sum (List.map_congr_left fun payment _ => ?_)
  unfold statedBy InStatement
  by_cases haccount : payment.accountId = accountId
  · by_cases hstatus : payment.status ∈ settledForStatement
    · by_cases hout : payment.effectiveAt < start ∨ finish < payment.effectiveAt
      · have hboth : payment.effectiveAt ≤ finish ↔ payment.effectiveAt ≤ start - 1 := by omega
        simp [haccount, hstatus, hout, hboth]
      · have hlast : payment.effectiveAt ≤ finish := by omega
        have hfirst : ¬ payment.effectiveAt ≤ start - 1 := by omega
        simp only [haccount, hstatus, hout, hlast, hfirst]
        simp [signedPayment]
    · simp [haccount, hstatus]
  · simp [haccount]

theorem statedBy_of_not_in (h : ¬ InStatement payment) : statedBy accountId t payment = 0 :=
  if_neg fun hs => h hs.2.1

theorem linesUpTo_persist (hfresh : store.payments.get payment.id = none) :
    linesUpTo (persist store payment) accountId t =
      linesUpTo store accountId t + statedBy accountId t payment :=
  Rows.total_put_new hfresh

end Lines

section Conditions

def callOf (ledger : LedgerStore) (mint : Mint) (c : LedgerCall) : Option EngineCall :=
  (LedgerStep.call mint c).engineCall ledger

/-- The call with which a payment received is credited. -/
def crediting (bank : BankState) (mint : PaymentMint) (ledgerMint : Mint) (input : ReceivePixInput) :
    Option EngineCall := do
  let account ← (resolveReceiver bank.store input).toOption.join
  callOf bank.ledger ledgerMint (.creditFromExternal (creditOptions mint account input))

/-- The call with which a refund is debited, and what it gives back. -/
def refunding (bank : BankState) (now : Int) (mint : PaymentMint) (ledgerMint : Mint)
    (input : RefundPixInput) : Option (MockPayment × EngineCall) :=
  match existingId bank.store input.idempotencyKey with
  | some _ => none
  | none => do
    let (original, account) ← (assertCanRefund bank.store now input).toOption
    let call ← callOf bank.ledger ledgerMint (.postRefund (refundOptions mint original account input))
    return (original, call)

/-- The call with which the reserve of a payment is settled, and the payment. -/
def committing (bank : BankState) (id : String) (commitMint : Mint) :
    Option (MockPayment × EngineCall) := do
  let payment ← bank.settling.get id
  let call ← callOf bank.ledger commitMint (.settlePixOut (settleOptions payment))
  return (payment, call)

/-- Both legs of a settlement go through. -/
def settles (ledger : LedgerStore) (payment : MockPayment) (commitMint externalMint : Mint) : Bool :=
  match Ledger.run ledger commitMint (.settlePixOut (settleOptions payment)) with
  | (.error _, _) => false
  | (.ok _, ledger) =>
    (Ledger.run ledger externalMint (.settleExternal (settleOptions payment))).1.isOk

/-- The call settles in order on the accounts of the customers. -/
def Ordered (bank : BankState) (call : EngineCall) : Prop :=
  ∀ account ∈ bank.store.accounts.table.values,
    SettlesInOrder bank.ledger call account.availableLedgerAccountId .CREDIT

/-- The step dates what it states as the ledger dates what it moves, settles in order,
and moves and states the same. -/
def Matches (bank : BankState) : BankStep → Prop
  | .create .. | .setStatus .. | .sendPix .. | .reset => True
  | .receivePix mint ledgerMint input => ∀ call ∈ crediting bank mint ledgerMint input,
    Ordered bank call ∧ (call.accepted bank.ledger = true → mint.settledAt = ledgerMint.now)
  | .refund now mint ledgerMint input => ∀ r ∈ refunding bank now mint ledgerMint input,
    Ordered bank r.2 ∧ (r.2.accepted bank.ledger = true →
      mint.settledAt = ledgerMint.now ∧ InStatement r.1)
  | .settleLater id commitMint externalMint settledAt => ∀ r ∈ committing bank id commitMint,
    Ordered bank r.2 ∧ (r.2.accepted bank.ledger = true →
      (bank.store.accounts.get r.1.accountId).isSome = true → settledAt = commitMint.now ∧
        (bank.store.payments.get id).isSome = true ∧
        settles bank.ledger r.1 commitMint externalMint = true)
  | .blockFunds ledgerMint options => ∀ call ∈ callOf bank.ledger ledgerMint (.blockFunds options),
    Ordered bank call ∧ (call.accepted bank.ledger = true →
      ∀ account ∈ bank.store.accounts.table.values,
        netOn bank.ledger call account.availableLedgerAccountId .CREDIT = 0)
  | .voidPixOut ledgerMint options => ∀ call ∈ callOf bank.ledger ledgerMint (.voidPixOut options),
    Ordered bank call
  | .forget transactionId => ∀ payment ∈ bank.store.payments.get transactionId,
    InStatement payment → bank.store.accounts.get payment.accountId = none

instance (bank : BankState) (call : EngineCall) : Decidable (Ordered bank call) :=
  inferInstanceAs (Decidable (∀ account ∈ bank.store.accounts.table.values,
    SettlesInOrder bank.ledger call account.availableLedgerAccountId .CREDIT))

instance (bank : BankState) (step : BankStep) : Decidable (Matches bank step) := by
  cases step <;> unfold Matches <;> infer_instance

def KeyFree (ledger : LedgerStore) (key : String) : Prop := ledger.findByIdempotencyKey key = none

def PaymentFresh (bank : BankState) (id : String) : Prop :=
  bank.store.payments.get id = none ∧ bank.settling.get id = none

/-- The ids that a step gives out, and the keys it makes of ids, are not in use. -/
def Fresh (bank : BankState) : BankStep → Prop
  | .create id availableId blockedId =>
    (Operation.openCustomerAccounts availableId blockedId id).Fresh bank.ledger ∧ id ≠ suspense ∧
      bank.ledger.accountIdByCode (customerAvailableCode id) = none ∧
      bank.store.accounts.get id = none ∧
      ∀ payment ∈ bank.store.payments.table.values, payment.accountId ≠ id
  | .sendPix _ mint ledgerMint _ => PaymentFresh bank mint.id ∧
    FreshTransaction bank.ledger ledgerMint.transactionId ∧ KeyFree bank.ledger ("pixout-auth-" ++ mint.id)
  | .settleLater id commitMint externalMint _ => ∀ payment ∈ bank.settling.get id,
    FreshTransaction bank.ledger commitMint.transactionId ∧
      KeyFree bank.ledger ("pixout-settle-" ++ payment.id) ∧
      FreshTransaction (Ledger.run bank.ledger commitMint (.settlePixOut (settleOptions payment))).2
        externalMint.transactionId
  | .receivePix mint ledgerMint _ => PaymentFresh bank mint.id ∧
    FreshTransaction bank.ledger ledgerMint.transactionId ∧ KeyFree bank.ledger ("pixin-" ++ mint.id)
  | .refund _ mint ledgerMint _ => PaymentFresh bank mint.id ∧
    FreshTransaction bank.ledger ledgerMint.transactionId ∧ KeyFree bank.ledger ("refund-" ++ mint.id)
  | .blockFunds ledgerMint _ | .voidPixOut ledgerMint _ =>
    FreshTransaction bank.ledger ledgerMint.transactionId
  | .setStatus .. | .forget .. | .reset => True

instance (ledger : LedgerStore) (key : String) : Decidable (KeyFree ledger key) :=
  inferInstanceAs (Decidable (_ = none))

instance (bank : BankState) (id : String) : Decidable (PaymentFresh bank id) :=
  inferInstanceAs (Decidable (_ ∧ _))

instance (bank : BankState) (step : BankStep) : Decidable (Fresh bank step) := by
  cases step <;> unfold Fresh <;> infer_instance

end Conditions

section Calls

variable {l : LedgerStore} {mint : Mint} {c : LedgerCall} {call : EngineCall} {k k' code code' : String}
  {r : PostTransactionResult}

/-- The account stands in the ledger under this code, and owes its balance. -/
def Seated (l : LedgerStore) (k code : String) : Prop :=
  ∃ a, l.accounts.get k = some a ∧ a.code = code ∧ a.normalBalance = .CREDIT

def Stands (l : LedgerStore) (k code : String) : Prop := ∃ a, l.accounts.get k = some a ∧ a.code = code

theorem Seated.stands (h : Seated l k code) : Stands l k code := by
  obtain ⟨a, ha, hcode, -⟩ := h
  exact ⟨a, ha, hcode⟩

theorem Stands.unique (h : Stands l k code) (h' : Stands l k code') : code = code' := by
  obtain ⟨a, ha, hcode⟩ := h
  obtain ⟨b, hb, hcode'⟩ := h'
  obtain rfl := Option.some.inj (ha.symm.trans hb)
  exact hcode.symm.trans hcode'

theorem stands_of_byCode (h : byCode l code = .ok k) : Stands l k code := by
  unfold byCode at h
  cases hid : l.accountIdByCode code with
  | none =>
    rw [hid] at h
    cases h
  | some id =>
    rw [hid] at h
    obtain rfl := Except.ok.inj h
    obtain ⟨a, hsearch, rfl⟩ := Option.map_eq_some_iff.mp hid
    obtain ⟨hmatch, hget⟩ := Rows.search_some hsearch
    exact ⟨a, hget, of_decide_eq_true hmatch⟩

theorem run_code {a : LedgerAccount} (call : EngineCall) (ha : l.accounts.get k = some a) :
    ∃ b, (call.run l).2.accounts.get k = some b ∧ b.code = a.code ∧ b.normalBalance = a.normalBalance := by
  have ho := run_outcome l call
  generalize (call.run l).1 = r, (call.run l).2 = l' at ho
  cases ho with
  | failed => exact ⟨a, ha, rfl, rfl⟩
  | replayed => exact ⟨a, ha, rfl, rfl⟩
  | posted mint input debits es after hkey hbalanced hbuilt =>
    obtain ⟨hb, hm⟩ := setAccounts_get (deltas_of_buildEntries _ _ _ _ _ _ _ _ _ hbuilt).1 ha
    exact ⟨_, hb, accountAfter_code _ _ _, hm.normalBalance⟩
  | resolved mint id options commit pending es after hkey hget hpending hbuilt =>
    obtain ⟨hb, hm⟩ := setAccounts_get (deltas_of_buildEntries _ _ _ _ _ _ _ _ _ hbuilt).1 ha
    exact ⟨_, hb, accountAfter_code _ _ _, hm.normalBalance⟩

theorem Seated.run (h : Seated l k code) (call : EngineCall) : Seated (call.run l).2 k code := by
  obtain ⟨a, ha, hcode, hnormal⟩ := h
  obtain ⟨b, hb, hcode', hnormal'⟩ := run_code call ha
  exact ⟨b, hb, hcode'.trans hcode, hnormal'.trans hnormal⟩

theorem Stands.run (h : Stands l k code) (call : EngineCall) : Stands (call.run l).2 k code := by
  obtain ⟨a, ha, hcode⟩ := h
  obtain ⟨b, hb, hcode', -⟩ := run_code call ha
  exact ⟨b, hb, hcode'.trans hcode⟩

theorem availableCode_long (id : String) : 4 < (customerAvailableCode id).length := by
  have hprefix : "2000.".length = 5 := by decide
  rw [customerAvailableCode, String.length_append, hprefix]
  omega

theorem availableCode_inj {id id' : String} (h : customerAvailableCode id = customerAvailableCode id') :
    id = id' := by
  have hlist := congrArg String.toList h
  rw [customerAvailableCode, customerAvailableCode, String.toList_append, String.toList_append] at hlist
  exact String.toList_inj.mp (List.append_cancel_left hlist)

theorem accepted_of_ok (hfree : KeyFree l call.key) (hr : (call.run l).1 = .ok r) :
    call.accepted l = true := by
  have ho := run_outcome l call
  unfold EngineCall.accepted
  generalize (call.run l).1 = r', (call.run l).2 = l' at ho hr
  cases ho with
  | failed => cases hr
  | replayed _ existing hkey =>
    rw [KeyFree, hkey] at hfree
    cases hfree
  | posted => rfl
  | resolved => rfl

theorem not_accepted_of_error {e : LedgerThrown} (hr : (call.run l).1 = .error e) :
    call.accepted l = false ∧ (call.run l).2 = l := by
  have ho := run_outcome l call
  rw [hr] at ho
  refine ⟨?_, outcome_unchanged ho⟩
  unfold EngineCall.accepted
  rw [hr]

/-- What a call of the service comes to, when its key is not in use. -/
theorem run_spec (hcall : callOf l mint c = some call) (hfree : KeyFree l call.key) :
    (∃ e, Ledger.run l mint c = (.error e, l) ∧ call.accepted l = false) ∨
      ∃ r, Ledger.run l mint c = (.ok r, (call.run l).2) ∧ (call.run l).1 = .ok r ∧
        call.accepted l = true := by
  have hengine : c.engineCall l mint = .ok call := toOption_eq_some.mp hcall
  have hrun : Ledger.run l mint c = (((call.run l).1).mapError .of, (call.run l).2) := by
    unfold Ledger.run
    rw [hengine]
  rw [hrun]
  cases hr : (call.run l).1 with
  | error e =>
    obtain ⟨haccepted, hsame⟩ := not_accepted_of_error hr
    exact .inl ⟨.of e, congrArg (Prod.mk _) hsame, haccepted⟩
  | ok r => exact .inr ⟨r, rfl, rfl, accepted_of_ok hfree hr⟩

theorem run_refused (hcall : callOf l mint c = none) : ∃ e, Ledger.run l mint c = (.error e, l) := by
  obtain ⟨e, he⟩ := toOption_eq_none.mp hcall
  unfold Ledger.run
  rw [he]
  exact ⟨.of e, rfl⟩

theorem creditFromExternal_spec {options : CreditOptions}
    (hcall : callOf l mint (.creditFromExternal options) = some call) :
    ∃ external, Stands l external externalWorldCode ∧ call = .post mint (posting .PIX_IN_RECEIVE .POSTED
      options.idempotencyKey [⟨external, .DEBIT, options.amountCents⟩,
        ⟨options.ledgerAccountId, .CREDIT, options.amountCents⟩]
      options.externalRef options.description) := by
  obtain ⟨input, hinput, rfl⟩ := map_eq_ok.mp (toOption_eq_some.mp hcall)
  obtain ⟨external, hexternal, h⟩ := bind_eq_ok.mp hinput
  exact ⟨external, stands_of_byCode hexternal, by rw [← Except.ok.inj h]⟩

theorem postRefund_spec {options : RefundOptions}
    (hcall : callOf l mint (.postRefund options) = some call) :
    ∃ external, Stands l external externalWorldCode ∧ call = .post mint (posting .PIX_REFUND_OUT .POSTED
      options.idempotencyKey [⟨options.ledgerAccountId, .DEBIT, options.amountCents⟩,
        ⟨external, .CREDIT, options.amountCents⟩] options.externalRef none) := by
  obtain ⟨input, hinput, rfl⟩ := map_eq_ok.mp (toOption_eq_some.mp hcall)
  obtain ⟨external, hexternal, h⟩ := bind_eq_ok.mp hinput
  exact ⟨external, stands_of_byCode hexternal, by rw [← Except.ok.inj h]⟩

theorem settleExternal_spec {options : SettleOptions}
    (hcall : callOf l mint (.settleExternal options) = some call) :
    ∃ clearing external, Stands l clearing pixOutClearingCode ∧ Stands l external externalWorldCode ∧
      call = .post mint (posting .PIX_OUT_SETTLE .POSTED (options.idempotencyKey ++ "-external")
        [⟨clearing, .DEBIT, options.amountCents⟩, ⟨external, .CREDIT, options.amountCents⟩] none none) := by
  obtain ⟨input, hinput, rfl⟩ := map_eq_ok.mp (toOption_eq_some.mp hcall)
  obtain ⟨clearing, hclearing, hrest⟩ := bind_eq_ok.mp hinput
  obtain ⟨external, hexternal, h⟩ := bind_eq_ok.mp hrest
  exact ⟨clearing, external, stands_of_byCode hclearing, stands_of_byCode hexternal,
    by rw [← Except.ok.inj h]⟩

/-- The customer pays the amount and the fee, and accounts of the bank take them in. -/
theorem authorizePixOut_spec {options : AuthorizeOptions}
    (hcall : callOf l mint (.authorizePixOut options) = some call) :
    ∃ taken, (∀ i ∈ taken, i.direction = .CREDIT ∧ ∃ code, code.length = 4 ∧ Stands l i.accountId code) ∧
      call = .post mint (posting .PIX_OUT_AUTHORIZE .PENDING options.idempotencyKey
        (⟨options.ledgerAccountId, .DEBIT, options.amountCents + options.feeCents⟩ :: taken)
        options.externalRef none) ∧
      (taken.map (·.amountCents)).sum =
        options.amountCents + if 0 < options.feeCents then options.feeCents else 0 := by
  obtain ⟨input, hinput, rfl⟩ := map_eq_ok.mp (toOption_eq_some.mp hcall)
  obtain ⟨clearing, hclearing, hrest⟩ := bind_eq_ok.mp hinput
  have hstands := stands_of_byCode hclearing
  dsimp only at hrest
  split at hrest
  · next hfee =>
    obtain ⟨fees, hfees, h⟩ := bind_eq_ok.mp hrest
    refine ⟨[⟨clearing, .CREDIT, options.amountCents⟩, ⟨fees, .CREDIT, options.feeCents⟩], ?_,
      by rw [← Except.ok.inj h]; rfl, by simp [hfee]⟩
    intro i hi
    simp only [List.mem_cons, List.not_mem_nil, or_false] at hi
    obtain rfl | rfl := hi
    · exact ⟨rfl, _, rfl, hstands⟩
    · exact ⟨rfl, _, rfl, stands_of_byCode hfees⟩
  · next hfee =>
    refine ⟨[⟨clearing, .CREDIT, options.amountCents⟩], ?_, by rw [← Except.ok.inj hrest], by simp [hfee]⟩
    intro i hi
    obtain rfl := List.mem_singleton.mp hi
    exact ⟨rfl, _, rfl, hstands⟩

theorem fresh_of_mint (hcall : callOf l mint c = some call) (hfresh : FreshTransaction l mint.transactionId) :
    call.Fresh l := by
  cases c with
  | creditFromExternal options =>
    obtain ⟨external, -, rfl⟩ := creditFromExternal_spec hcall
    exact fun _ => hfresh
  | authorizePixOut options =>
    obtain ⟨taken, -, rfl, -⟩ := authorizePixOut_spec hcall
    exact fun _ => hfresh
  | settlePixOut options =>
    obtain rfl := Option.some.inj hcall
    exact hfresh
  | settleExternal options =>
    obtain ⟨clearing, external, -, -, rfl⟩ := settleExternal_spec hcall
    exact fun _ => hfresh
  | voidPixOut options =>
    obtain rfl := Option.some.inj hcall
    exact hfresh
  | postRefund options =>
    obtain ⟨external, -, rfl⟩ := postRefund_spec hcall
    exact fun _ => hfresh
  | blockFunds options =>
    obtain rfl := Option.some.inj hcall
    exact fun _ => hfresh

end Calls

end BaasConnector.MockBank.Statements
