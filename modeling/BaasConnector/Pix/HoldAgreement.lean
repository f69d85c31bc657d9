import BaasConnector.Connector.Replies
import BaasConnector.Pix.HoldResolution

namespace BaasConnector.Pix.HoldAgreement

open BaasConnector.Lib.Effects BaasConnector.Lib.Keyed BaasConnector.Taxonomy.Status
open BaasConnector.Taxonomy.Errors BaasConnector.Ledger.Types BaasConnector.Ledger.Engine
open BaasConnector.Ledger.MemoryStore BaasConnector.Ledger.Shadow BaasConnector.Ledger.Holds
open BaasConnector.Ledger.Outcomes
open BaasConnector.Connector.Records BaasConnector.Connector.Calls BaasConnector.Connector.Database
open BaasConnector.Connector.Replies BaasConnector.Connector.Calm BaasConnector.Pix.HoldResolution
open BaasConnector.Pix.OperationReconciler

/-- The statuses in which a payment has come to an end. -/
def isFinal : TransactionStatus → Bool
  | .SETTLED | .FAILED | .CANCELLED | .REVERSED | .PARTIALLY_REVERSED => true
  | _ => false

/-- The hold of a transaction is where the status of the transaction says. -/
structure Agrees (hold : Option LedgerTransactionStatus) (status : TransactionStatus) : Prop where
  pending : hold = some .PENDING ↔ isFinal status = false
  posted : hold = some .POSTED ↔ status = .SETTLED
  voided : hold = some .VOIDED ↔ status = .FAILED ∨ status = .CANCELLED

theorem agrees_pending {status : TransactionStatus} (h : isFinal status = false) :
    Agrees (some .PENDING) status := by
  cases status <;> simp [isFinal] at h <;> constructor <;> simp [isFinal]

theorem agrees_resolved {status : TransactionStatus} {commit : Bool}
    (h : resolves status = some commit) : Agrees (some (resolvedStatus commit)) status := by
  cases status <;> cases commit <;> simp [resolves, isSettled, isFailed] at h <;>
    constructor <;> simp [isFinal, resolvedStatus]

abbrev StoredTransactions := Rows String TransactionRecord TransactionRecord.id

/-- No transaction refers to the hold. -/
def Unheld (transactions : StoredTransactions) (hold : String) : Prop :=
  ∀ id t, transactions.get id = some t → t.ledgerPendingTransactionId ≠ some hold

/-- Every outgoing transaction agrees with its hold, which exists and is its own. -/
structure Consistent (ledger : LedgerStore) (transactions : StoredTransactions) : Prop where
  agree : ∀ id t hold, transactions.get id = some t → t.direction = .DEBIT →
    t.ledgerPendingTransactionId = some hold → Agrees (holdStatus ledger hold) t.status
  held : ∀ id t hold, transactions.get id = some t → t.ledgerPendingTransactionId = some hold →
    holdStatus ledger hold ≠ none
  unshared : ∀ id id' t t' hold, transactions.get id = some t → transactions.get id' = some t' →
    t.ledgerPendingTransactionId = some hold → t'.ledgerPendingTransactionId = some hold → id = id'

theorem consistent_empty (ledger : LedgerStore) : Consistent ledger Rows.empty where
  agree _ _ _ h := nomatch h
  held _ _ _ h := nomatch h
  unshared _ _ _ _ _ h := nomatch h

section State

variable {ledger ledger' : LedgerStore} {transactions : StoredTransactions} {hold : String}
  {t : TransactionRecord}

theorem Consistent.of_kept (h : Consistent ledger transactions)
    (hl : ∀ k, ¬ Unheld transactions k → holdStatus ledger k ≠ none →
      holdStatus ledger' k = holdStatus ledger k) : Consistent ledger' transactions := by
  have hsame : ∀ id t k, transactions.get id = some t → t.ledgerPendingTransactionId = some k →
      holdStatus ledger' k = holdStatus ledger k :=
    fun id t k ht hk => hl k (fun hu => hu id t ht hk) (h.held id t k ht hk)
  refine ⟨fun id t k ht hd hk => ?_, fun id t k ht hk => ?_, h.unshared⟩
  · rw [hsame id t k ht hk]
    exact h.agree id t k ht hd hk
  · rw [hsame id t k ht hk]
    exact h.held id t k ht hk

theorem unheld_of_missing (h : Consistent ledger transactions) (hn : holdStatus ledger hold = none) :
    Unheld transactions hold := fun id t ht hk => h.held id t hold ht hk hn

/-- A new transaction has no hold, or a pending one of its own while it is open. -/
theorem Consistent.create (h : Consistent ledger transactions) (hnew : transactions.get t.id = none)
    (hh : ∀ hold, t.ledgerPendingTransactionId = some hold → Unheld transactions hold ∧
      holdStatus ledger hold = some .PENDING ∧ isFinal t.status = false) :
    Consistent ledger (transactions.put t) := by
  have hget : ∀ id u, (transactions.put t).get id = some u →
      (id = t.id ∧ u = t) ∨ transactions.get id = some u := by
    intro id u hu
    rw [Rows.get_put] at hu
    by_cases hid : id = t.id
    · rw [if_pos hid, Option.some.injEq] at hu
      exact .inl ⟨hid, hu.symm⟩
    · rw [if_neg hid] at hu
      exact .inr hu
  refine ⟨fun id u k hu hd hk => ?_, fun id u k hu hk => ?_, fun id id' u u' k hu hu' hk hk' => ?_⟩
  · obtain ⟨_, rfl⟩ | hu := hget id u hu
    · rw [(hh k hk).2.1]
      exact agrees_pending (hh k hk).2.2
    · exact h.agree id u k hu hd hk
  · obtain ⟨_, rfl⟩ | hu := hget id u hu
    · simp [(hh k hk).2.1]
    · exact h.held id u k hu hk
  · obtain ⟨hid, rfl⟩ | hu := hget id u hu <;> rcases hget id' u' hu' with ⟨hid', heq⟩ | hu'
    · rw [hid, hid']
    · exact absurd hk' ((hh k hk).1 id' u' hu')
    · rw [heq] at hk'
      exact absurd hk ((hh k hk').1 id u hu)
    · exact h.unshared id id' u u' k hu hu' hk hk'

/-- A status change comes with the hold in the state the new status asks for. -/
theorem Consistent.change (h : Consistent ledger transactions) (c : TransactionStatusChange)
    (ht : transactions.get t.id = some t)
    (hl : ∀ k, t.ledgerPendingTransactionId ≠ some k → holdStatus ledger k ≠ none →
      holdStatus ledger' k = holdStatus ledger k)
    (hh : ∀ hold, t.ledgerPendingTransactionId = some hold →
      ∃ status, holdStatus ledger' hold = some status ∧
        (t.direction = .DEBIT → Agrees (some status) c.toStatus)) :
    Consistent ledger' (transactions.put (t.change c)) := by
  have hget : ∀ id u, (transactions.put (t.change c)).get id = some u →
      (id = t.id ∧ u = t.change c) ∨ (id ≠ t.id ∧ transactions.get id = some u) := by
    intro id u hu
    have hid : (t.change c).id = t.id := rfl
    rw [Rows.get_put, hid] at hu
    by_cases hid : id = t.id
    · rw [if_pos hid, Option.some.injEq] at hu
      exact .inl ⟨hid, hu.symm⟩
    · rw [if_neg hid] at hu
      exact .inr ⟨hid, hu⟩
  have hother : ∀ id u k, id ≠ t.id → transactions.get id = some u →
      u.ledgerPendingTransactionId = some k → holdStatus ledger' k = holdStatus ledger k :=
    fun id u k hid hu hk => hl k (fun hk' => hid (h.unshared id t.id u t k hu ht hk hk'))
      (h.held id u k hu hk)
  refine ⟨fun id u k hu hd hk => ?_, fun id u k hu hk => ?_, fun id id' u u' k hu hu' hk hk' => ?_⟩
  · obtain ⟨_, rfl⟩ | ⟨hid, hu⟩ := hget id u hu
    · obtain ⟨status, hs, ha⟩ := hh k hk
      rw [hs]
      exact ha hd
    · rw [hother id u k hid hu hk]
      exact h.agree id u k hu hd hk
  · obtain ⟨_, rfl⟩ | ⟨hid, hu⟩ := hget id u hu
    · obtain ⟨status, hs, _⟩ := hh k hk
      simp [hs]
    · rw [hother id u k hid hu hk]
      exact h.held id u k hu hk
  · obtain ⟨hid, rfl⟩ | ⟨_, hu⟩ := hget id u hu <;> rcases hget id' u' hu' with ⟨hid', rfl⟩ | ⟨_, hu'⟩
    · rw [hid, hid']
    · rw [hid]
      exact h.unshared t.id id' t u' k ht hu' hk hk'
    · rw [hid']
      exact h.unshared id t.id u t k hu ht hk hk'
    · exact h.unshared id id' u u' k hu hu' hk hk'

theorem open_of_guard {toStatus : TransactionStatus} {occurredAt : Int}
    (h : t.guard toStatus occurredAt = none) (hr : toStatus ≠ .REVERSED)
    (hp : toStatus ≠ .PARTIALLY_REVERSED) : isFinal t.status = false := by
  have hm := (guardStatus_none.mp h).2.2
  cases hs : t.status <;> cases toStatus <;> simp_all [transactionTransitions, isFinal]

end State

/-- The calls that neither the ledger nor a transaction can tell. -/
def Call.aside (q : Call) : Prop :=
  Call.touchesLedger q = false ∧ Call.touchesTransactions q = false

structure Same (w w' : World) : Prop where
  ledger : w'.ledger = w.ledger
  transactions : w'.transactions = w.transactions

/-- Whatever the program does under choices of this kind, it ends with every
hold in agreement. -/
def Safe {α : Type} (kind : Choice → Prop) (p : Flow α) (w : World) : Prop :=
  p.wp (calm kind) (fun _ w' => Consistent w'.ledger w'.transactions) w

section Safe

variable {α β : Type} {kind : Choice → Prop} {w w' : World} {key hold : String}

theorem env_same {q : Call} {r : Except Thrown (Answer q)} (hq : Call.aside q) (h : env w q r w') :
    Same w w' := by
  obtain ⟨_, _, rfl⟩ | ⟨c, _, hc⟩ := env_iff.mp h
  · exact ⟨rfl, rfl⟩
  · exact ⟨respond_ledger hq.1 hc, respond_transactions hq.2 hc⟩

theorem wp_aside {p : Flow α} (hp : p.Within Call.aside) :
    p.wp (calm kind) (fun _ w' => Same w w') w := by
  have h : p.wp env (fun _ w' => True ∧ Same w w') w :=
    Prog.wp_of_meets (fun _ => ⟨rfl, rfl⟩)
      (fun h h' => ⟨h'.ledger.trans h.ledger, h'.transactions.trans h.transactions⟩)
      (fun hq he => ⟨trivial, env_same hq he⟩) hp w
  exact Prog.wp_env (fun _ _ _ _ => env_of_calm) (Prog.wp_mono env h fun _ _ h => h.2)

theorem Same.consistent (h : Same w w') (hw : Consistent w.ledger w.transactions) :
    Consistent w'.ledger w'.transactions := by
  rw [h.ledger, h.transactions]
  exact hw

theorem aside_ask {q : Call} (hq : Call.aside q) : (ask q).Within Call.aside :=
  Prog.meets_perform.mpr ⟨hq, fun _ _ => trivial⟩

theorem safe_aside {p : Flow α} (hw : Consistent w.ledger w.transactions)
    (hp : p.Within Call.aside) : Safe kind p w :=
  Prog.wp_mono _ (wp_aside hp) fun _ _ h => h.consistent hw

theorem safe_bind {p : Flow α} {f : α → Flow β} (hw : Consistent w.ledger w.transactions)
    (hp : p.Within Call.aside) (hf : ∀ a w', Same w w' → Safe kind (f a) w') :
    Safe kind (p.bind f) w := by
  unfold Safe
  rw [Prog.wp_bind]
  refine Prog.wp_mono _ (wp_aside hp) fun r w' h => ?_
  cases r with
  | error e => exact h.consistent hw
  | ok a => exact hf a w' h

theorem safe_then {p : Flow α} {f : α → Flow β} (hp : Safe kind p w)
    (hf : ∀ a w', Consistent w'.ledger w'.transactions → Safe kind (f a) w') :
    Safe kind (p.bind f) w := by
  unfold Safe
  rw [Prog.wp_bind]
  refine Prog.wp_mono _ hp fun r w' h => ?_
  cases r with
  | error e => exact h
  | ok a => exact hf a w' h

theorem safe_create_bind {t : TransactionRecord} {f : TransactionRecord → Flow β}
    (hw : Consistent w.ledger w.transactions)
    (hh : ∀ hold, t.ledgerPendingTransactionId = some hold → Unheld w.transactions hold ∧
      holdStatus w.ledger hold = some .PENDING ∧ isFinal t.status = false)
    (hf : ∀ a w', Consistent w'.ledger w'.transactions → Safe kind (f a) w') :
    Safe kind ((ask (.transactionCreate t)).bind f) w := by
  unfold Safe
  rw [Prog.wp_bind, Prog.wp_perform]
  rintro r w' ⟨c, _, _, hc⟩
  obtain ⟨rfl, rfl⟩ | ⟨hnew, rfl, rfl⟩ := createTransaction_cases hc
  · exact hw
  · exact hf _ _ (hw.create hnew hh)

/-- A pending hold of the ledger that no transaction refers to yet. -/
structure Reserved (w : World) (hold : String) : Prop where
  consistent : Consistent w.ledger w.transactions
  unheld : Unheld w.transactions hold
  pending : holdStatus w.ledger hold = some .PENDING

theorem Reserved.same (h : Reserved w hold) (hs : Same w w') : Reserved w' hold := by
  obtain ⟨hl, ht⟩ := hs
  exact ⟨by rw [hl, ht]; exact h.consistent, by rw [ht]; exact h.unheld, by rw [hl]; exact h.pending⟩

/-- The key of a hold is unused, or names a pending hold that no transaction
refers to. -/
def KeyReady (w : World) (key : String) : Prop :=
  ∀ existing, w.ledger.findByIdempotencyKey key = some existing →
    existing.transaction.status = .PENDING ∧ Unheld w.transactions existing.transaction.id

theorem KeyReady.same (hk : KeyReady w key) (h : Same w w') : KeyReady w' key := by
  unfold KeyReady
  rw [h.ledger, h.transactions]
  exact hk

theorem wp_authorize {availableId : String} {amountCents : Int} {externalRef : Option String}
    (hw : Consistent w.ledger w.transactions) (hk : KeyReady w key) :
    (ask (.ledger (.authorizeOut availableId amountCents key externalRef))).wp (calm kind)
      (fun r w' => Consistent w'.ledger w'.transactions ∧
        ∀ hold, r = .ok hold → Reserved w' hold.transaction.id) w := by
  rw [Prog.wp_perform]
  intro r w' he
  obtain ⟨mint, hm, hr, rfl⟩ := calm_ledger he
  have hmissing : holdStatus w.ledger mint.transactionId = none := by simp [holdStatus, hm]
  cases hp : (LedgerCommand.authorizeOut availableId amountCents key externalRef).perform mint
    w.ledger with
  | mk out ledger =>
  rw [hp] at hr
  rcases authorizeOut_cases mint w.ledger availableId amountCents key externalRef hp with
    ⟨⟨e, he⟩, rfl⟩ | ⟨existing, hx, hok, rfl⟩ | ⟨hold, entries, accounts, _, hok, hid, hst, rfl⟩
  · rw [hr, he]
    exact ⟨hw, fun _ h => by cases h⟩
  · refine ⟨hw, fun hold h => ?_⟩
    rw [hr, hok, Except.ok.injEq] at h
    subst h
    obtain ⟨hst, hu⟩ := hk existing hx
    have hpending := findByIdempotencyKey_status hx
    rw [hst] at hpending
    exact ⟨hw, hu, hpending⟩
  · have hw' : Consistent (w.ledger.persist hold entries accounts) w.transactions :=
      hw.of_kept fun k _ hk => persist_holdStatus_of_ne entries accounts fun h =>
        hk (by rw [h, hid, hmissing])
    refine ⟨hw', fun result h => ?_⟩
    rw [hr, hok, Except.ok.injEq] at h
    subst h
    refine ⟨hw', ?_, ?_⟩
    · rw [hid]
      exact unheld_of_missing hw hmissing
    · rw [holdStatus, LedgerStore.persist, Rows.get_put_self, Option.map_some, hst]

/-- The call that resolves a hold fails, is replayed, or moves this hold alone. -/
theorem calm_resolve {commit : Bool} {r : Except Thrown PostTransactionResult}
    (he : calm kind w (.ledger (resolveCommand commit hold key)) r w') :
    (w' = w ∧ (w.ledger.findByIdempotencyKey key = none → ∃ e, r = .error e)) ∨
      ∃ ledger a, w' = { w with ledger } ∧ r = .ok a ∧
        holdStatus ledger hold = some (resolvedStatus commit) ∧
        ∀ k, k ≠ hold → holdStatus w.ledger k ≠ none → holdStatus ledger k = holdStatus w.ledger k := by
  obtain ⟨mint, hm, rfl, rfl⟩ := calm_ledger he
  by_cases hc : Resolvable w.ledger hold key commit
  · obtain ⟨pending, entries, accounts, hp, _, hrun⟩ := perform_resolve_resolvable mint hc
    rw [hrun]
    refine .inr ⟨_, _, rfl, rfl, resolved_holdStatus _ _ _ hp, fun k hk hn => ?_⟩
    refine resolved_holdStatus_of_ne hp _ _ _ hk fun h => hn ?_
    simp [holdStatus, h, hm]
  · rw [perform_resolve_unchanged hc]
    exact .inl ⟨rfl, fun hk => (perform_resolve_error hc hk mint).1⟩

/-- To void a hold that no transaction refers to leaves the rest in agreement. -/
theorem safe_void_bind {f : PostTransactionResult → Flow β} (hw : Reserved w hold)
    (hf : ∀ a w', Consistent w'.ledger w'.transactions → Safe kind (f a) w') :
    Safe kind ((ask (.ledger (.voidOut hold key))).bind f) w := by
  unfold Safe
  rw [Prog.wp_bind, Prog.wp_perform]
  intro r w' he
  have hv : calm kind w (.ledger (resolveCommand false hold key)) r w' := he
  have hw' : Consistent w'.ledger w'.transactions := by
    obtain ⟨rfl, _⟩ | ⟨ledger, _, rfl, _, _, hl⟩ := calm_resolve hv
    · exact hw.consistent
    · exact hw.consistent.of_kept fun k hk hn => hl k (fun h => hk (h ▸ hw.unheld)) hn
  cases r with
  | error e => exact hw'
  | ok a => exact hf a w' hw'

theorem safe_credit_bind {availableId : String} {amountCents : Int} {externalRef : Option String}
    {f : PostTransactionResult → Flow β} (hw : Consistent w.ledger w.transactions)
    (hf : ∀ a w', Consistent w'.ledger w'.transactions → Safe kind (f a) w') :
    Safe kind ((ask (.ledger (.creditIn availableId amountCents key externalRef))).bind f) w := by
  unfold Safe
  rw [Prog.wp_bind, Prog.wp_perform]
  intro r w' he
  obtain ⟨mint, hm, _, rfl⟩ := calm_ledger he
  have hw' : Consistent ((LedgerCommand.creditIn availableId amountCents key externalRef).perform mint
      w.ledger).2 w.transactions :=
    hw.of_kept fun k _ hn => creditIn_holdStatus mint w.ledger availableId amountCents key externalRef
      fun h => hn (by simp [holdStatus, h, hm])
  cases r with
  | error e => exact hw'
  | ok a => exact hf a _ hw'

section Change

variable {t : TransactionRecord} {c : TransactionStatusChange}
  {g : StatusChangeResult TransactionStatus TransactionRecord → Flow α}

/-- A status write without the ledger, as long as it does not end a payment
that has a hold. -/
theorem safe_change_bind (hw : Consistent w.ledger w.transactions)
    (hopen : ∀ t hold, w.transactions.get c.transactionId = some t →
      t.ledgerPendingTransactionId = some hold → t.guard c.toStatus c.occurredAt = none →
      isFinal c.toStatus = false)
    (hg : ∀ r, (g r).Within Call.aside) :
    Safe kind ((ask (.transactionApplyStatusChange c)).bind g) w := by
  unfold Safe
  rw [Prog.wp_bind, Prog.wp_perform]
  rintro r w' ⟨choice, _, _, hc⟩
  have hw' : Consistent w'.ledger w'.transactions := by
    obtain ⟨_, rfl⟩ | ⟨t, ht, hgd, _, rfl⟩ := changeTransaction_cases hc
    · exact hw
    · have hid : t.id = c.transactionId := Rows.key_of_get ht
      refine hw.change c (hid ▸ ht) (fun _ _ _ => rfl) fun hold hh => ?_
      have hfin := hopen t hold ht hh hgd
      have ht' := open_of_guard hgd (fun h => by simp [h, isFinal] at hfin)
        fun h => by simp [h, isFinal] at hfin
      obtain ⟨status, hs⟩ := Option.ne_none_iff_exists'.mp (hw.held _ t hold ht hh)
      refine ⟨status, hs, fun hd => ?_⟩
      rw [← hs, (hw.agree _ t hold ht hd hh).pending.mpr ht']
      exact agrees_pending hfin
  cases r with
  | error e => exact hw'
  | ok a => exact safe_aside hw' (hg a)

theorem changeTransaction_applied (ht : w.transactions.get c.transactionId = some t)
    (hg : t.guard c.toStatus c.occurredAt = none)
    (he : (w.transactions.search fun u => u.id != t.id && taken u.endToEndId c.endToEndId) = none) :
    w.changeTransaction c =
      reply (.applied (t.change c)) { w with transactions := w.transactions.put (t.change c) } := by
  unfold World.changeTransaction
  simp only [ht, hg, he, Option.isSome_none, Bool.false_eq_true, if_false]

/-- The guard takes up a provider's status that the engine can follow, or it
turns one away that the engine does not follow either. -/
def Orderly (w : World) (t : TransactionRecord) (status : TransactionStatus) (occurredAt : Int)
    (endToEndId : Option String) (id : String) : Prop :=
  ∀ hold, t.ledgerPendingTransactionId = some hold →
    (t.guard status occurredAt = none ∧ status ≠ .REVERSED ∧ status ≠ .PARTIALLY_REVERSED ∧
      ∀ commit, resolves status = some commit →
        w.ledger.findByIdempotencyKey (resolveKey commit id) = none ∧
        (w.transactions.search fun u => u.id != t.id && taken u.endToEndId endToEndId) = none) ∨
    (t.guard status occurredAt ≠ none ∧ ¬ ResolvesHold w.ledger (some hold) status id)

theorem Orderly.same {status : TransactionStatus} {occurredAt : Int} {endToEndId : Option String}
    {id : String} (ho : Orderly w t status occurredAt endToEndId id) (h : Same w w') :
    Orderly w' t status occurredAt endToEndId id := by
  unfold Orderly
  rw [h.ledger, h.transactions]
  exact ho

theorem open_of_resolves {status : TransactionStatus} (hn : resolves status = none)
    (hr : status ≠ .REVERSED) (hp : status ≠ .PARTIALLY_REVERSED) : isFinal status = false := by
  cases status <;> simp_all [resolves, isSettled, isFailed, isFinal]

theorem wp_resolution_unchanged {status : TransactionStatus} {id : String}
    (h : ¬ ResolvesHold w.ledger (some hold) status id) :
    (holdResolution (some hold) status id).wp (calm kind) (fun _ w' => w' = w) w :=
  Prog.wp_env (fun _ _ _ _ => env_of_calm) (wp_holdResolution_unchanged h)

/-- The two steps that webhook and reconciler share: hold first, status second. -/
theorem safe_status_write {status : TransactionStatus} {occurredAt : Int} {endToEndId : Option String}
    {id : String} {c : Option String → TransactionStatusChange}
    {g : Option String → StatusChangeResult TransactionStatus TransactionRecord → Flow α}
    (hw : Consistent w.ledger w.transactions) (ht : w.transactions.get t.id = some t)
    (ho : Orderly w t status occurredAt endToEndId id)
    (hc : ∀ p, (c p).transactionId = t.id ∧ (c p).toStatus = status ∧
      (c p).occurredAt = occurredAt ∧ (c p).endToEndId = endToEndId)
    (hg : ∀ p r, (g p r).Within Call.aside) :
    Safe kind ((holdResolution t.ledgerPendingTransactionId status id).bind fun p =>
      (ask (.transactionApplyStatusChange (c p))).bind (g p)) w := by
  have hplain : (∀ hold, t.ledgerPendingTransactionId = some hold → t.guard status occurredAt = none →
      isFinal status = false) → ∀ p, Safe kind
        ((ask (.transactionApplyStatusChange (c p))).bind (g p)) w := by
    intro hopen p
    obtain ⟨hid, hst, hat, -⟩ := hc p
    refine safe_change_bind hw (fun u hold hu hh hgd => ?_) (hg p)
    rw [hid, ht, Option.some.injEq] at hu
    subst hu
    rw [hst, hat] at hgd
    rw [hst]
    exact hopen hold hh hgd
  unfold Safe
  rw [Prog.wp_bind]
  cases hh : t.ledgerPendingTransactionId with
  | none => exact hplain (fun hold h => by simp [hh] at h) none
  | some hold =>
    obtain ⟨hgd, hrev, hpart, hkey⟩ | ⟨hgd, hn⟩ := ho hold hh
    · cases hr : resolves status with
      | none =>
        simp only [holdResolution, hr]
        exact hplain (fun _ _ _ => open_of_resolves hr hrev hpart) none
      | some commit =>
        obtain ⟨hunused, he2e⟩ := hkey commit hr
        simp only [holdResolution, hr]
        rw [Prog.wp_bind, Prog.wp_perform]
        intro r w' he
        obtain ⟨rfl, herr⟩ | ⟨ledger, a, rfl, rfl, hst, hl⟩ := calm_resolve he
        · obtain ⟨e, rfl⟩ := herr hunused
          exact hw
        · change Safe kind ((ask (.transactionApplyStatusChange (c (some a.transaction.id)))).bind
            (g (some a.transaction.id))) { w with ledger }
          obtain ⟨hid, hto, hat, hend⟩ := hc (some a.transaction.id)
          unfold Safe
          rw [Prog.wp_bind, Prog.wp_perform]
          rintro r w' ⟨choice, _, _, hcall⟩
          change World.changeTransaction { w with ledger } (c (some a.transaction.id)) = _ at hcall
          rw [changeTransaction_applied (hid ▸ ht) (by rw [hto, hat]; exact hgd)
            (by rw [hend]; exact he2e)] at hcall
          simp only [reply, Option.some.injEq, Prod.mk.injEq] at hcall
          obtain ⟨rfl, rfl⟩ := hcall
          refine safe_aside ?_ (hg _ _)
          refine hw.change _ ht (fun k hk hn => hl k (fun h => hk (h ▸ hh)) hn) fun k hk => ?_
          rw [hh, Option.some.injEq] at hk
          subst hk
          exact ⟨_, hst, fun _ => hto ▸ agrees_resolved hr⟩
    · refine Prog.wp_mono _ (wp_resolution_unchanged hn) fun r w' h => ?_
      subst h
      cases r with
      | error e => exact hw
      | ok p => exact hplain (fun _ _ h => absurd h hgd) p

end Change

end Safe

end BaasConnector.Pix.HoldAgreement
