import BaasConnector.MockBank.Statements

namespace BaasConnector.MockBank.StatementInvariant

open BaasConnector.Connector.Records (PaymentDirection)
open BaasConnector.Lib.Keyed BaasConnector.Lib.Runs BaasConnector.Lib.Stamps
open BaasConnector.Taxonomy.Status BaasConnector.Ledger.Types BaasConnector.Ledger.Engine
open BaasConnector.Ledger.MemoryStore BaasConnector.Ledger.Outcomes BaasConnector.Ledger.Adjustments
open BaasConnector.Ledger.Shadow BaasConnector.Ledger.Invariants BaasConnector.Ledger.ChartOfAccounts
open BaasConnector.Ledger.Reachable BaasConnector.Ledger.Calls BaasConnector.Ledger.Consistency
open BaasConnector.Ledger.Availability BaasConnector.Ledger.Stamped BaasConnector.MockBank.Errors
open BaasConnector.MockBank.Ledger BaasConnector.MockBank.Payments BaasConnector.MockBank.Statements

variable {l : LedgerStore} {store store' : MockBankStore} {bank : BankState} {call : EngineCall}
  {payment : MockPayment} {mint : Mint} {k : String} {config : MockBankConfig} {step : BankStep}

/-- The customers of the bank have their accounts in the ledger, whose balances are
read right, and the lines of each until an instant are what was posted until then. -/
structure Matched (l : LedgerStore) (store : MockBankStore) : Prop where
  kept : Kept l
  seated : ∀ {id account}, store.accounts.get id = some account →
    Seated l account.availableLedgerAccountId (customerAvailableCode id)
  balances : ∀ {id account}, store.accounts.get id = some account →
    BalanceExplained l account.availableLedgerAccountId .CREDIT
  stated : ∀ {id account}, store.accounts.get id = some account → ∀ t,
    linesUpTo store id t = total (postedChange .CREDIT)
      (upTo (·.effectiveAt) (settledEntries l account.availableLedgerAccountId) t)

theorem Matched.explained (h : Matched bank.ledger bank.store) (localeCompare : String → String → Int) :
    Explained localeCompare bank := by
  intro account hmem start finish hwindow
  obtain ⟨id, hget⟩ := Table.mem_values.mp hmem
  have hid : account.id = id := Rows.key_of_get hget
  rw [statementLines_sum localeCompare bank.store account.id hwindow, hid, h.stated hget, h.stated hget,
    balanceAsOf_eq, balanceAsOf_eq, h.balances hget, h.balances hget]

/-- No account comes in, and none changes its account in the ledger. -/
def Keeps (store store' : MockBankStore) : Prop :=
  ∀ id account', store'.accounts.get id = some account' → ∃ account,
    store.accounts.get id = some account ∧
    account'.availableLedgerAccountId = account.availableLedgerAccountId

theorem Keeps.refl (h : store'.accounts = store.accounts) : Keeps store store' := by
  intro id account' hget
  rw [h] at hget
  exact ⟨account', hget, rfl⟩

theorem Matched.restate (h : Matched l store) (hkeeps : Keeps store store')
    (hlines : ∀ id account, store.accounts.get id = some account → ∀ t,
      linesUpTo store' id t = linesUpTo store id t) : Matched l store' := by
  refine ⟨h.kept, fun {id account'} hget => ?_, fun {id account'} hget => ?_, fun {id account'} hget t => ?_⟩
  · obtain ⟨account, hget, hsame⟩ := hkeeps id account' hget
    rw [hsame]
    exact h.seated hget
  · obtain ⟨account, hget, hsame⟩ := hkeeps id account' hget
    rw [hsame]
    exact h.balances hget
  · obtain ⟨account, hget, hsame⟩ := hkeeps id account' hget
    rw [hsame, hlines id account hget]
    exact h.stated hget t

/-- The net of a call on an account at an instant, if it is accepted. -/
def netUpTo (l : LedgerStore) (call : EngineCall) (k : String) (t : Int) : Int :=
  if call.accepted l = true ∧ call.effectiveAt ≤ t then netOn l call k .CREDIT else 0

/-- A call that settles in order, with lines for what it moves. -/
theorem Matched.after (h : Matched l store) (hfresh : call.Fresh l)
    (horder : ∀ account ∈ store.accounts.table.values,
      SettlesInOrder l call account.availableLedgerAccountId .CREDIT)
    (hkeeps : Keeps store store')
    (hlines : ∀ id account, store.accounts.get id = some account → ∀ t, linesUpTo store' id t =
      linesUpTo store id t + netUpTo l call account.availableLedgerAccountId t) :
    Matched (call.run l).2 store' := by
  refine ⟨call_kept h.kept hfresh, fun {id account'} hget => ?_, fun {id account'} hget => ?_,
    fun {id account'} hget t => ?_⟩
  · obtain ⟨account, hget, hsame⟩ := hkeeps id account' hget
    rw [hsame]
    exact (h.seated hget).run call
  · obtain ⟨account, hget, hsame⟩ := hkeeps id account' hget
    obtain ⟨a, ha, -, hnormal⟩ := h.seated hget
    have hbalances := h.balances hget
    have hone := horder account (Table.mem_values.mpr ⟨id, hget⟩)
    rw [← hnormal] at hbalances hone
    rw [hsame, ← hnormal]
    exact (call_explained_iff h.kept.sound h.kept.indexed hfresh ha hbalances).mpr hone
  · obtain ⟨account, hget, hsame⟩ := hkeeps id account' hget
    rw [hsame, hlines id account hget, h.stated hget,
      total_upTo_run h.kept.sound h.kept.indexed hfresh, netUpTo]

theorem Matched.account_inj (h : Matched l store) {id id' : String} {account account' : MockAccount}
    (hget : store.accounts.get id = some account) (hget' : store.accounts.get id' = some account')
    (hsame : account.availableLedgerAccountId = account'.availableLedgerAccountId) : id = id' := by
  have hseat := (h.seated hget').stands
  rw [← hsame] at hseat
  exact availableCode_inj ((h.seated hget).stands.unique hseat)

theorem ne_of_bank {k k' code id : String} (h : Seated l k (customerAvailableCode id))
    (hstands : Stands l k' code) (hshort : code.length = 4) : k' ≠ k := by
  rintro rfl
  have hlong := availableCode_long id
  rw [h.stands.unique hstands] at hlong
  omega

theorem netOn_untouched (hne : ∀ i ∈ call.inputs l, i.accountId ≠ k) : netOn l call k .CREDIT = 0 := by
  have hnil : (call.inputs l).filter (·.accountId = k) = [] :=
    List.filter_eq_nil_iff.mpr fun i hi => by simpa using hne i hi
  rw [netOn, hnil]
  exact ite_self 0

theorem order_untouched (hne : ∀ i ∈ call.inputs l, i.accountId ≠ k) :
    SettlesInOrder l call k .CREDIT := by
  intro _ _ index hindex
  have hnil : (call.inputs l).zipIdx.filter (·.1.accountId = k) = [] :=
    List.filter_eq_nil_iff.mpr fun i hi => by simpa using hne i.1 (List.fst_mem_of_mem_zipIdx hi)
  rw [lastOn, hnil] at hindex
  cases hindex

/-- What a payment waits for: a hold on the account of its customer, which takes the
amount and the fee from there to accounts of the bank. -/
structure Reserved (l : LedgerStore) (store : MockBankStore) (payment : MockPayment) (hold k : String) :
    Prop where
  pending : payment.ledgerPendingTransactionId = some hold
  stored : (l.transactions.get hold).isSome = true
  seated : Seated l k (customerAvailableCode payment.accountId)
  own : (pendingInputs l hold).filter (·.accountId = k) =
    [⟨k, .DEBIT, payment.amountCents + payment.feeCents⟩]
  others : ∀ i ∈ pendingInputs l hold, i.accountId = k ∨ ∃ code, code.length = 4 ∧ Stands l i.accountId code
  same : ∀ account, store.accounts.get payment.accountId = some account →
    account.availableLedgerAccountId = k

structure Waiting (l : LedgerStore) (store : MockBankStore) (payment : MockPayment) : Prop where
  reserved : ∃ hold k, Reserved l store payment hold k
  direction : payment.direction = .outgoing
  fee : 0 ≤ payment.feeCents
  twin : ∀ q, store.payments.get payment.id = some q → q.accountId = payment.accountId ∧
    q.direction = .outgoing ∧ q.amountCents = payment.amountCents ∧ q.feeCents = payment.feeCents ∧
    ¬ InStatement q

theorem Waiting.after (h : Waiting l store payment) (hkept : Kept l) (hfresh : call.Fresh l) :
    Waiting (call.run l).2 store payment := by
  obtain ⟨hold, k, hr⟩ := h.reserved
  refine ⟨⟨hold, k, hr.pending, ?_, hr.seated.run call, ?_, ?_, hr.same⟩, h.direction, h.fee, h.twin⟩
  all_goals
    obtain ⟨t, ht⟩ := Option.isSome_iff_exists.mp hr.stored
    obtain ⟨t', ht', -, hentries⟩ :=
      ((run_outcome l call).grows hkept.indexed hfresh).transactions hold t ht
  · exact Option.isSome_iff_exists.mpr ⟨t', ht'⟩
  · rw [pendingInputs, hentries]
    exact hr.own
  · intro i hi
    rw [pendingInputs, hentries] at hi
    obtain hown | ⟨code, hshort, hstands⟩ := hr.others i hi
    · exact .inl hown
    · exact .inr ⟨code, hshort, hstands.run call⟩

theorem Waiting.restore (h : Waiting l store payment) (hkeeps : Keeps store store')
    (hpayments : ∀ q, store'.payments.get payment.id = some q → store.payments.get payment.id = some q) :
    Waiting l store' payment := by
  obtain ⟨hold, k, hr⟩ := h.reserved
  refine ⟨⟨hold, k, hr.pending, hr.stored, hr.seated, hr.own, hr.others, fun account' hget => ?_⟩,
    h.direction, h.fee, fun q hq => h.twin q (hpayments q hq)⟩
  obtain ⟨account, hget, hsame⟩ := hkeeps _ account' hget
  exact hsame.trans (hr.same account hget)

theorem Waiting.persist {new : MockPayment} (h : Waiting l store payment) (hne : payment.id ≠ new.id) :
    Waiting l (persist store new) payment := by
  refine h.restore (Keeps.refl rfl) fun q hq => ?_
  rwa [← Rows.get_put_ne store.payments new hne]

structure Reconciled (bank : BankState) : Prop where
  matched : Matched bank.ledger bank.store
  waiting : ∀ {id payment}, bank.settling.get id = some payment →
    payment.id = id ∧ Waiting bank.ledger bank.store payment
  suspended : bank.store.accounts.get suspense = none

theorem Keeps.none (hkeeps : Keeps store store') {id : String} (h : store.accounts.get id = none) :
    store'.accounts.get id = none := by
  cases hget : store'.accounts.get id with
  | none => rfl
  | some account' =>
    obtain ⟨account, hold, -⟩ := hkeeps id account' hget
    rw [h] at hold
    cases hold

/-- The ledger alone changes, by a call that settles in order and moves nothing on the
accounts of customers. -/
theorem Reconciled.still (h : Reconciled bank) (hfresh : call.Fresh bank.ledger) (horder : Ordered bank call)
    (hnet : ∀ id account, bank.store.accounts.get id = some account → ∀ t,
      netUpTo bank.ledger call account.availableLedgerAccountId t = 0) :
    Reconciled { bank with ledger := (call.run bank.ledger).2 } := by
  refine ⟨h.matched.after hfresh horder (Keeps.refl rfl) fun id account hget t => ?_,
    fun {id payment} hwaiting => ?_, h.suspended⟩
  · rw [hnet id account hget, Int.add_zero]
  · obtain ⟨hid, hw⟩ := h.waiting hwaiting
    exact ⟨hid, hw.after h.matched.kept hfresh⟩

theorem run_reconciled {c : LedgerCall} (h : Reconciled bank)
    (hfresh : FreshTransaction bank.ledger mint.transactionId)
    (hcall : ∀ call ∈ callOf bank.ledger mint c, Ordered bank call ∧
      ∀ account ∈ bank.store.accounts.table.values, call.accepted bank.ledger = true →
        netOn bank.ledger call account.availableLedgerAccountId .CREDIT = 0) :
    Reconciled { bank with ledger := (Ledger.run bank.ledger mint c).2 } := by
  cases hsome : callOf bank.ledger mint c with
  | none =>
    obtain ⟨e, he⟩ := run_refused hsome
    rw [he]
    exact h
  | some call =>
    obtain ⟨horder, hnet⟩ := hcall call hsome
    rw [run_eq hsome]
    refine h.still (fresh_of_mint hsome hfresh) horder fun id account hget t => ?_
    unfold netUpTo
    split
    · next hc => exact hnet account (Table.mem_values.mpr ⟨id, hget⟩) hc.1
    · rfl

section Create

/-- The ledger after new accounts have been opened in it. -/
structure Opens (l l' : LedgerStore) : Prop where
  entries : l'.entries = l.entries
  transactions : l'.transactions = l.transactions
  accounts : ∀ {k a}, l.accounts.get k = some a → l'.accounts.get k = some a

variable {l' : LedgerStore} {code id availableId blockedId : String}

theorem opens_openCustomerAccounts
    (hfresh : (Operation.openCustomerAccounts availableId blockedId id).Fresh l) :
    Opens l (openCustomerAccounts l availableId blockedId id) := by
  obtain ⟨hne, havailable, hblocked⟩ := hfresh
  obtain ⟨hentries, htransactions, -⟩ := openCustomerAccounts_eq l availableId blockedId id
  refine ⟨hentries, htransactions, fun {k a} ha => ?_⟩
  have hk : k ≠ availableId := by
    rintro rfl
    rw [havailable] at ha
    cases ha
  have hk' : k ≠ blockedId := by
    rintro rfl
    rw [hblocked] at ha
    cases ha
  rw [openCustomerAccounts, createFrom_get_of_ne hk', createFrom_get_of_ne hk, ha]

theorem Opens.settledEntries (h : Opens l l') (k : String) : settledEntries l' k = settledEntries l k :=
  congrArg (fun entries : Table String (List LedgerEntry) => entries.values.flatten.filter _) h.entries

theorem Opens.pendingInputs (h : Opens l l') (hold : String) :
    pendingInputs l' hold = pendingInputs l hold := by
  rw [Ledger.Outcomes.pendingInputs, Ledger.Outcomes.pendingInputs, LedgerStore.entriesOf,
    LedgerStore.entriesOf, h.entries]

theorem Opens.seated (h : Opens l l') (hs : Seated l k code) : Seated l' k code := by
  obtain ⟨a, ha, hrest⟩ := hs
  exact ⟨a, h.accounts ha, hrest⟩

theorem Opens.stands (h : Opens l l') (hs : Stands l k code) : Stands l' k code := by
  obtain ⟨a, ha, hrest⟩ := hs
  exact ⟨a, h.accounts ha, hrest⟩

theorem Opens.reserved {hold : String} (h : Opens l l') (hr : Reserved l store payment hold k)
    (hsame : ∀ account, store'.accounts.get payment.accountId = some account →
      account.availableLedgerAccountId = k) : Reserved l' store' payment hold k := by
  refine ⟨hr.pending, ?_, h.seated hr.seated, ?_, fun i hi => ?_, hsame⟩
  · rw [h.transactions]
    exact hr.stored
  · rw [h.pendingInputs]
    exact hr.own
  · rw [h.pendingInputs] at hi
    obtain hown | ⟨code, hshort, hstands⟩ := hr.others i hi
    · exact .inl hown
    · exact .inr ⟨code, hshort, h.stands hstands⟩

theorem createFrom_free {t : AccountTemplate} (hfree : l.accountIdByCode t.code = none) :
    (createFrom l id t).accounts.get id = some (t.account id) := by
  unfold createFrom
  rw [hfree]
  exact Rows.get_put_self l.accounts (t.account id)

theorem not_stands (hfree : l.accountIdByCode code = none) : ¬ Stands l k code := by
  rintro ⟨a, ha, hcode⟩
  rw [LedgerStore.accountIdByCode, Option.map_eq_none_iff] at hfree
  have hall := Rows.search_eq_none.mp hfree k a ha
  rw [hcode, decide_eq_true rfl] at hall
  cases hall

theorem create_get (hcode : bank.ledger.accountIdByCode (customerAvailableCode id) = none) {id' : String}
    {account : MockAccount}
    (hget : (create bank id availableId blockedId).store.accounts.get id' = some account) :
    (id' = id ∧ account.availableLedgerAccountId = availableId) ∨
      bank.store.accounts.get id' = some account := by
  change (bank.store.accounts.put _).get id' = _ at hget
  rw [Rows.get_put] at hget
  split at hget
  · next heq =>
    obtain rfl := Option.some.inj hget
    exact .inl ⟨heq, by simp [hcode]⟩
  · exact .inr hget

theorem create_seated (hfresh : (Operation.openCustomerAccounts availableId blockedId id).Fresh l)
    (hcode : l.accountIdByCode (customerAvailableCode id) = none) :
    Seated (openCustomerAccounts l availableId blockedId id) availableId (customerAvailableCode id) := by
  refine ⟨(availableTemplate id).account availableId, ?_, rfl, rfl⟩
  rw [openCustomerAccounts, createFrom_get_of_ne hfresh.1]
  exact createFrom_free (t := availableTemplate id) hcode

theorem create_reconciled (h : Reconciled bank)
    (hfresh : Statements.Fresh bank (.create id availableId blockedId)) :
    Reconciled (create bank id availableId blockedId) := by
  obtain ⟨hopened, hsuspense, hcode, hnew, hpayments⟩ := hfresh
  have hkept : Kept (openCustomerAccounts bank.ledger availableId blockedId id) :=
    @perform_kept _ (.openCustomerAccounts availableId blockedId id) h.matched.kept hopened
  have hopens : Opens bank.ledger (create bank id availableId blockedId).ledger :=
    opens_openCustomerAccounts hopened
  have hnone : settledEntries bank.ledger availableId = [] :=
    settledEntries_new h.matched.kept.sound hopened.2.1
  have hlines : ∀ t, linesUpTo bank.store id t = 0 := fun t =>
    Rows.total_zero fun k payment hget => if_neg fun hs =>
      hpayments payment (Table.mem_values.mpr ⟨k, hget⟩) hs.1
  refine ⟨⟨hkept, fun {id' account} hin => ?_, fun {id' account} hin => ?_, fun {id' account} hin t => ?_⟩,
    fun {id' payment} hin => ?_, ?_⟩
  · obtain ⟨rfl, hsame⟩ | hin := create_get hcode hin
    · rw [hsame]
      exact create_seated hopened hcode
    · exact hopens.seated (h.matched.seated hin)
  · rw [BalanceExplained, hopens.settledEntries]
    obtain ⟨rfl, hsame⟩ | hin := create_get hcode hin
    · rw [hsame, hnone]
      exact fun _ => rfl
    · exact h.matched.balances hin
  · rw [hopens.settledEntries]
    obtain ⟨rfl, hsame⟩ | hin := create_get hcode hin
    · rw [hsame, hnone]
      exact hlines t
    · exact h.matched.stated hin t
  · obtain ⟨hid, hw⟩ := h.waiting hin
    obtain ⟨hold, k, hr⟩ := hw.reserved
    refine ⟨hid, ⟨hold, k, hopens.reserved hr fun account hin => ?_⟩, hw.direction, hw.fee, hw.twin⟩
    obtain ⟨heq, -⟩ | hin := create_get hcode hin
    · have hseat := hr.seated.stands
      rw [heq] at hseat
      exact absurd hseat (not_stands hcode)
    · exact hr.same account hin
  · cases hget : (create bank id availableId blockedId).store.accounts.get suspense with
    | none => rfl
    | some account =>
      obtain ⟨heq, -⟩ | hin := create_get hcode hget
      · exact absurd heq.symm hsuspense
      · rw [h.suspended] at hin
        cases hin

end Create

end BaasConnector.MockBank.StatementInvariant
