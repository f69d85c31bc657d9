import BaasConnector.Webhooks.Matching

namespace BaasConnector.Pix.Convergence

open BaasConnector.Lib.Keyed hiding lookup
open BaasConnector.Lib.Effects BaasConnector.Taxonomy.Status
open BaasConnector.Taxonomy.Errors BaasConnector.Ledger.Types BaasConnector.Ledger.MemoryStore
open BaasConnector.Ledger.Shadow BaasConnector.Ledger.Holds
open BaasConnector.Connector.Records BaasConnector.Connector.Calls BaasConnector.Connector.Database
open BaasConnector.Connector.Calm BaasConnector.Pix.HoldResolution
open BaasConnector.Connector.Replies BaasConnector.Pix.OperationReconciler
open BaasConnector.Webhooks.Apply BaasConnector.Webhooks.Matching

/-- What the provider and our clock answer during one reconciler run. -/
structure Remote where
  now : Int
  found : Except Thrown (Option PixTransaction)
  got : Except Thrown PixTransaction
  lines : Except Thrown (List StatementLine)

def Remote.answers (remote : Remote) (c : Choice) : Prop :=
  c.instant = remote.now ∧ c.found = remote.found ∧ c.got = remote.got ∧ c.lines = remote.lines

def Remote.byKey (remote : Remote) (bound : BoundProvider) : Option PixTransaction :=
  if bound.findByIdempotencyKey then remote.found.toOption.join else none

def Remote.byReference (remote : Remote) (bound : BoundProvider) (transaction : TransactionRecord) :
    Option PixTransaction :=
  if (transaction.providerTransactionId.orElse fun _ => transaction.endToEndId).isSome ∧ bound.get then
    remote.got.toOption
  else none

def Remote.byStatement (remote : Remote) (bound : BoundProvider) (transaction : TransactionRecord) :
    Option PixTransaction :=
  if bound.statement then
    remote.lines.toOption.bind fun lines =>
      match lines.filter (fun line => line.debit && line.amountCents == transaction.amountCents) with
      | [line] => some (ofStatementLine line)
      | _ => none
  else none

/-- What the three lookups of the reconciler come to under these answers. -/
def Remote.lookup (remote : Remote) (bound : BoundProvider) (transaction : TransactionRecord) :
    Option PixTransaction :=
  match remote.byKey bound with
  | some found => some found
  | none =>
    match remote.byReference bound transaction with
    | some found => some found
    | none => remote.byStatement bound transaction

variable {remote : Remote} {bound : BoundProvider} {operation : OperationRecord}
  {transaction : TransactionRecord} {providerAccountId : String} {w w' : World}

theorem wp_byIdempotencyKey :
    (byIdempotencyKey bound providerAccountId operation).wp (calm remote.answers)
      (fun r w' => r = .ok (remote.byKey bound) ∧ w' = w) w := by
  unfold byIdempotencyKey Remote.byKey
  by_cases hb : bound.findByIdempotencyKey = true
  · simp only [hb, if_true]
    refine wp_fixed_attempt (fun c hk => congrArg (fun r => some (r, w)) hk.2.1) ?_
    cases remote.found <;> exact ⟨rfl, rfl⟩
  · simp only [hb]
    exact ⟨rfl, rfl⟩

theorem wp_byEndToEndId :
    (byEndToEndId bound providerAccountId transaction).wp (calm remote.answers)
      (fun r w' => r = .ok (remote.byReference bound transaction) ∧ w' = w) w := by
  unfold byEndToEndId Remote.byReference
  cases transaction.providerTransactionId.orElse fun _ => transaction.endToEndId with
  | none => exact ⟨rfl, rfl⟩
  | some providerRef =>
    by_cases hb : bound.get = true
    · simp only [hb, if_true, Option.isSome_some, and_self]
      refine wp_fixed_attempt (fun c hk => congrArg (fun r => some (r, w)) hk.2.2.1) ?_
      cases remote.got <;> exact ⟨rfl, rfl⟩
    · simp only [hb]
      exact ⟨rfl, rfl⟩

theorem wp_byStatementScan :
    (byStatementScan bound providerAccountId transaction).wp (calm remote.answers)
      (fun r w' => r = .ok (remote.byStatement bound transaction) ∧ w' = w) w := by
  unfold byStatementScan Remote.byStatement
  by_cases hb : bound.statement = true
  · simp only [hb, if_true]
    refine wp_fixed_attempt (fun c hk => congrArg (fun r => some (r, w)) hk.2.2.2) ?_
    cases remote.lines with
    | error e => exact ⟨rfl, rfl⟩
    | ok lines =>
      simp only [Except.toOption, Option.bind_some]
      cases lines.filter (fun line => line.debit && line.amountCents == transaction.amountCents) with
      | nil => exact ⟨rfl, rfl⟩
      | cons line rest => cases rest <;> exact ⟨rfl, rfl⟩
  · simp only [hb]
    exact ⟨rfl, rfl⟩

theorem wp_lookup :
    (lookup bound providerAccountId operation transaction).wp (calm remote.answers)
      (fun r w' => r = .ok (remote.lookup bound transaction) ∧ w' = w) w := by
  unfold lookup Remote.lookup
  rw [Prog.bind_eq, Prog.wp_bind]
  refine Prog.wp_mono _ wp_byIdempotencyKey fun r w' h => ?_
  obtain ⟨rfl, rfl⟩ := h
  cases remote.byKey bound with
  | some found => exact ⟨rfl, rfl⟩
  | none =>
    simp only [Prog.onOk_ok, Prog.bind_eq]
    rw [Prog.wp_bind]
    refine Prog.wp_mono _ wp_byEndToEndId fun r w' h => ?_
    obtain ⟨rfl, rfl⟩ := h
    cases remote.byReference bound transaction with
    | some found => exact ⟨rfl, rfl⟩
    | none => exact wp_byStatementScan

/-- An operation, its outgoing transaction and the hold of the two, as stored. -/
structure Payment (w : World) (operation : OperationRecord) (transaction : TransactionRecord)
    (hold : String) : Prop where
  operationStored : w.operations.get operation.id = some operation
  transactionStored : w.transactions.get transaction.id = some transaction
  key : transaction.idempotencyKey = some operation.providerIdempotencyKey
  uniqueKey : ∀ id t, w.transactions.get id = some t →
    t.idempotencyKey = some operation.providerIdempotencyKey → id = transaction.id
  account : ∃ account, w.accounts.get transaction.accountId = some account ∧
    account.providerAccountId.isSome
  held : transaction.ledgerPendingTransactionId = some hold
  distinct : operation.id ≠ transaction.id

/-- No transaction of the ledger has been recorded under the key yet. -/
def Unused (w : World) (commit : Bool) (id : String) : Prop :=
  w.ledger.byIdempotencyKey.get (resolveKey commit id) = none

variable {hold : String} {commit : Bool} {status : TransactionStatus}

theorem resolveKey_ne {a b : String} (h : a ≠ b) : resolveKey commit a ≠ resolveKey commit b := by
  cases commit <;> simpa [resolveKey] using h

theorem wp_holdResolution_error (kind : Choice → Prop) {id : String}
    (hr : resolves status = some commit)
    (h : ¬ Resolvable w.ledger hold (resolveKey commit id) commit) (hk : Unused w commit id) :
    (holdResolution (some hold) status id).wp (calm kind) (fun r w' => (∃ e, r = .error e) ∧ w' = w)
      w := by
  simp only [holdResolution, hr, Prog.wp_bind, Prog.wp_perform]
  intro r w' he
  obtain ⟨mint, _, rfl, rfl⟩ := calm_ledger he
  obtain ⟨⟨e, he⟩, hs⟩ := perform_resolve_error h (findByIdempotencyKey_none hk) mint
  rw [he, hs]
  exact ⟨⟨e, rfl⟩, rfl⟩

theorem wp_holdResolution_ok (kind : Choice → Prop) {id : String} (hr : resolves status = some commit)
    (h : Resolvable w.ledger hold (resolveKey commit id) commit) :
    (holdResolution (some hold) status id).wp (calm kind)
      (fun r w' => ∃ posted ledger, r = .ok (some posted) ∧ w' = { w with ledger } ∧
        holdStatus ledger hold = some (resolvedStatus commit) ∧
        ((∀ k t, w.ledger.transactions.get k = some t → t.pendingTransactionId ≠ some hold) →
          ResolvedOnce ledger hold commit) ∧
        ∀ k, k ≠ resolveKey commit id → w.ledger.byIdempotencyKey.get k = none →
          ledger.byIdempotencyKey.get k = none) w := by
  simp only [holdResolution, hr, Prog.wp_bind, Prog.wp_perform]
  intro r w' he
  obtain ⟨mint, hm, rfl, rfl⟩ := calm_ledger he
  obtain ⟨pending, entries, accounts, hp, _, hrun⟩ := perform_resolve_resolvable mint h
  rw [hrun]
  refine ⟨_, _, rfl, rfl, resolved_holdStatus _ _ _ hp, resolved_once _ _ _ hp hm, fun k hk hn => ?_⟩
  exact resolved_keys _ _ _ hk hn

/-- The rest of a reconciler run, once the operation is found stuck and the
provider has answered. -/
theorem resolve_reaches (hp : Payment w operation transaction hold)
    (hstuck : operation.status.isStuck = true)
    {post : Except Thrown ReconcileOutcome → World → Prop} {found : PixTransaction}
    (hl : remote.lookup w.provider transaction = some found)
    (h : (applyOutcome operation transaction found).wp (calm remote.answers) post
      { w with
        operations := w.operations.put (operation.update ⟨operation.id, none, none, none, true⟩) }) :
    (resolve operation.id).wp (calm remote.answers) post w := by
  obtain ⟨account, ha, hpa⟩ := hp.account
  obtain ⟨providerAccountId, hpid⟩ := Option.isSome_iff_exists.mp hpa
  have hsearch : w.transactions.search (fun t =>
      t.idempotencyKey == some operation.providerIdempotencyKey) = some transaction :=
    Rows.search_of_unique hp.transactionStored (by simp [hp.key]) fun id t ht hkey =>
      hp.uniqueKey id t ht (by simpa using hkey)
  unfold resolve
  refine wp_fixed (fun _ _ => congrArg (fun o => reply o w) hp.operationStored) ?_
  simp only [Prog.onOk_ok, hstuck, not_true_eq_false, if_false]
  refine wp_fixed (fun _ _ => congrArg (fun t => reply t w) hsearch) ?_
  simp only [Prog.onOk_ok]
  refine wp_fixed (fun _ _ => congrArg (fun a => reply a w) ha) ?_
  simp only [Prog.onOk_ok, Option.bind_some, hpid]
  refine wp_fixed (fun _ _ => rfl) ?_
  simp only [Prog.onOk_ok]
  refine wp_fixed (fun _ _ => by unfold respond; simp only [World.updateOperation, hp.operationStored]; rfl) ?_
  simp only [Prog.onOk_ok, Prog.bind_eq]
  rw [Prog.wp_bind]
  refine Prog.wp_mono _ wp_lookup fun r w' hr => ?_
  obtain ⟨rfl, rfl⟩ := hr
  simp only [Prog.onOk_ok, hl]
  exact h

theorem applyOutcome_throws {found : PixTransaction}
    (hh : transaction.ledgerPendingTransactionId = some hold)
    (hr : resolves found.status = some commit)
    (h : ¬ Resolvable w.ledger hold (resolveKey commit operation.id) commit)
    (hk : Unused w commit operation.id) :
    (applyOutcome operation transaction found).wp (calm remote.answers) (fun r _ => ∃ e, r = .error e)
      w := by
  unfold applyOutcome recordOutcome
  refine wp_fixed (fun c hc => congrArg (fun now => reply now w) hc.1) ?_
  rw [Prog.onOk_ok, resolveHold_eq, hh, Prog.bind_eq, Prog.wp_bind]
  refine Prog.wp_mono _ (wp_holdResolution_error _ hr h hk) fun r w' hrw => ?_
  obtain ⟨⟨e, rfl⟩, _⟩ := hrw
  exact ⟨e, rfl⟩

/-- The guard takes up the provider's status, or the transaction has it already. -/
def Accepts (w : World) (transaction : TransactionRecord) (found : PixTransaction) (now : Int) : Prop :=
  transaction.status = found.status ∨
    (transaction.guard found.status now = none ∧
      (w.transactions.search fun t =>
        t.id != transaction.id && taken t.endToEndId found.endToEndId) = none)

theorem status_ne_of_guard {toStatus : TransactionStatus} {occurredAt : Int}
    (h : transaction.guard toStatus occurredAt = none) : transaction.status ≠ toStatus := by
  intro he
  have hlt := (guardStatus_none.mp h).2.1
  rw [he] at hlt
  exact lt_irrefl _ hlt

/-- What the two writes after the hold lead to. -/
structure Recorded (w : World) (operationId : String) (transaction : TransactionRecord)
    (found : PixTransaction) (accepted : Prop) (w' : World) : Prop where
  ledger : w'.ledger = w.ledger
  operation : ∃ o, w'.operations.get operationId = some o ∧ o.status = operationStatus found.status
  transaction : ∃ t, w'.transactions.get transaction.id = some t ∧
    t.ledgerPendingTransactionId = transaction.ledgerPendingTransactionId ∧
    (t.status = found.status ↔ accepted)

theorem wp_recordOutcome (kind : Choice → Prop) (found : PixTransaction) {o : OperationRecord}
    (ho : w.operations.get operation.id = some o)
    (ht : w.transactions.get transaction.id = some transaction) (now : Int) (posted : Option String) :
    (recordOutcome operation transaction found now posted).wp (calm kind)
      (fun r w' => (Accepts w transaction found now → ∃ a, r = .ok a) ∧
        ∀ a, r = .ok a → Recorded w operation.id transaction found
          (Accepts w transaction found now) w') w := by
  unfold recordOutcome
  have hchange : ∀ c : Choice, respond c (.transactionApplyStatusChange
      (outcomeChange transaction found posted now)) w =
      w.changeTransaction (outcomeChange transaction found posted now) := fun _ => rfl
  cases hg : transaction.guard found.status now with
  | some reason =>
    have hacc : Accepts w transaction found now ↔ transaction.status = found.status := by
      simp [Accepts, hg]
    refine wp_fixed (fun c _ => (hchange c).trans (by
      simp only [World.changeTransaction, outcomeChange, ht, hg]; rfl)) ?_
    refine wp_fixed (fun c _ => by unfold respond; simp only [World.updateOperation, ho]; rfl) ?_
    refine wp_fixed (fun c _ => rfl) ?_
    refine ⟨fun _ => ⟨_, rfl⟩, fun _ _ => ⟨rfl, ?_, transaction, ht, rfl, hacc.symm⟩⟩
    have hid : o.id = operation.id := Rows.key_of_get ho
    exact ⟨_, by rw [← hid]; exact Rows.get_put_self _ _, rfl⟩
  | none =>
    have hne := status_ne_of_guard hg
    cases hs : w.transactions.search fun t =>
        t.id != transaction.id && taken t.endToEndId found.endToEndId with
    | some other =>
      have hacc : ¬ Accepts w transaction found now := by simp [Accepts, hne, hs]
      refine wp_fixed (fun c _ => (hchange c).trans (by
        simp only [World.changeTransaction, outcomeChange, ht, hg, hs, Option.isSome_some, if_true]
        rfl)) ?_
      exact ⟨fun h => absurd h hacc, fun _ h => by cases h⟩
    | none =>
      have hacc : Accepts w transaction found now := .inr ⟨hg, hs⟩
      refine wp_fixed (fun c _ => (hchange c).trans (by
        simp only [World.changeTransaction, outcomeChange, ht, hg, hs, Option.isSome_none,
          Bool.false_eq_true, if_false]
        rfl)) ?_
      refine wp_fixed (fun c _ => by unfold respond; simp only [World.updateOperation, ho]; rfl) ?_
      refine wp_fixed (fun c _ => rfl) ?_
      have hid : o.id = operation.id := Rows.key_of_get ho
      refine ⟨fun _ => ⟨_, rfl⟩, fun _ _ => ⟨rfl, ?_, _, Rows.get_put_self _ _, rfl, ?_⟩⟩
      · exact ⟨_, by rw [← hid]; exact Rows.get_put_self _ _, rfl⟩
      · exact iff_of_true rfl hacc

/-- The part of a transaction that ties it to its operation, account and hold. -/
def ties (t : TransactionRecord) : Option String × String × Option String :=
  (t.idempotencyKey, t.accountId, t.ledgerPendingTransactionId)

/-- Nothing changes but the progress of stored transactions. -/
structure Carries (w w' : World) : Prop where
  ledger : w'.ledger = w.ledger
  operations : w'.operations = w.operations
  accounts : w'.accounts = w.accounts
  ties : ∀ id, (w'.transactions.get id).map ties = (w.transactions.get id).map ties

theorem Carries.refl (w : World) : Carries w w := ⟨rfl, rfl, rfl, fun _ => rfl⟩

theorem Carries.trans {w v u : World} (h : Carries w v) (h' : Carries v u) : Carries w u :=
  ⟨h'.ledger.trans h.ledger, h'.operations.trans h.operations, h'.accounts.trans h.accounts,
    fun id => (h'.ties id).trans (h.ties id)⟩

def progresses : Call → Prop
  | .transactionApplyStatusChange _ => True
  | q => Call.bookkeeping q = true

theorem carries_of_env {q : Call} {r : Except Thrown (Answer q)} (hq : progresses q)
    (h : env w q r w') : Carries w w' := by
  have hparties : Call.touchesParties q = false := by
    cases q <;> simp_all [progresses, Call.bookkeeping, Call.touchesParties]
  have hledger : Call.touchesLedger q = false := by
    cases q <;> simp_all [progresses, Call.bookkeeping, Call.touchesLedger]
  obtain ⟨ho, ha⟩ := env_parties hparties h
  refine ⟨env_ledger hledger h, ho, ha, fun id => ?_⟩
  obtain hsame | ⟨t, rfl, _⟩ | ⟨c, t, _, _, ht, _, ht'⟩ := env_transactions h id
  · rw [hsame]
  · simp [progresses, Call.bookkeeping] at hq
  · rw [ht, ht']
    rfl

theorem Payment.carry (hp : Payment w operation transaction hold) (hc : Carries w w') :
    ∃ transaction', transaction'.id = transaction.id ∧ Payment w' operation transaction' hold := by
  have ht := hc.ties transaction.id
  rw [hp.transactionStored, Option.map_some, Option.map_eq_some_iff] at ht
  obtain ⟨t, ht', hties⟩ := ht
  simp only [Convergence.ties, Prod.mk.injEq] at hties
  have hid : t.id = transaction.id := Rows.key_of_get ht'
  refine ⟨t, hid, by rw [hc.operations]; exact hp.operationStored, by rwa [hid], hties.1.trans hp.key,
    fun id u hu hkey => ?_, ?_, hties.2.2.trans hp.held, by rw [hid]; exact hp.distinct⟩
  · have hu' := hc.ties id
    rw [hu, Option.map_some, eq_comm, Option.map_eq_some_iff] at hu'
    obtain ⟨v, hv, hvties⟩ := hu'
    simp only [Convergence.ties, Prod.mk.injEq] at hvties
    rw [hid]
    exact hp.uniqueKey id v hv (hvties.1.trans hkey)
  · rw [hties.2.1, hc.accounts]
    exact hp.account

end BaasConnector.Pix.Convergence
