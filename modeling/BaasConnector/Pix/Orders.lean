import BaasConnector.Pix.Convergence

namespace BaasConnector.Pix.Orders

open BaasConnector.Lib.Keyed hiding lookup
open BaasConnector.Lib.Effects BaasConnector.Taxonomy.Status BaasConnector.Taxonomy.Errors
open BaasConnector.Ledger.Types BaasConnector.Ledger.MemoryStore BaasConnector.Ledger.Holds
open BaasConnector.Connector.Records BaasConnector.Connector.Calls BaasConnector.Connector.Database
open BaasConnector.Connector.Calm BaasConnector.Pix.HoldResolution BaasConnector.Pix.Convergence
open BaasConnector.Pix.OperationReconciler BaasConnector.Webhooks.Apply
open BaasConnector.Webhooks.Matching

/-- The outcome of the operation is unknown and its hold is still pending. -/
structure Live (w : World) (operation : OperationRecord) (transaction : TransactionRecord)
    (hold : String) (commit : Bool) : Prop extends Payment w operation transaction hold where
  unknown : operation.status = .UNKNOWN
  pending : holdStatus w.ledger hold = some .PENDING
  unresolved : ∀ id t, w.ledger.transactions.get id = some t → t.pendingTransactionId ≠ some hold
  unusedOperation : Unused w commit operation.id
  unusedTransaction : Unused w commit transaction.id

/-- A webhook has resolved the hold under its own key, and the operation does
not know of it. -/
structure Taken (w : World) (operation : OperationRecord) (transaction : TransactionRecord)
    (hold : String) (commit : Bool) : Prop extends Payment w operation transaction hold where
  unknown : operation.status = .UNKNOWN
  resolved : holdStatus w.ledger hold ≠ some .PENDING
  unusedOperation : Unused w commit operation.id

/-- The reconciler has run to its end. -/
structure Done (w : World) (operationId transactionId hold : String) (commit : Bool)
    (status : TransactionStatus) (accepted : Prop) : Prop where
  operation : ∃ o, w.operations.get operationId = some o ∧ o.status.isFinal = true
  resolved : ResolvedOnce w.ledger hold commit
  unusedTransaction : Unused w commit transactionId
  transaction : ∃ t, w.transactions.get transactionId = some t ∧
    t.ledgerPendingTransactionId = some hold ∧ (t.status = status ↔ accepted)

variable {w w' : World} {operation : OperationRecord} {transaction existing : TransactionRecord}
  {hold : String} {commit : Bool} {status incoming transitionTo : TransactionStatus}
  {accepted : Prop} {ctx : ApplyContext} {draft : CanonicalEventDraft} {data : PaymentEventData}
  {remote : Remote} {operationId transactionId : String}

theorem resolvedStatus_ne (commit : Bool) : resolvedStatus commit ≠ .PENDING := by
  cases commit <;> decide

theorem not_resolvable {key : String} (h : holdStatus w.ledger hold ≠ some .PENDING) :
    ¬ Resolvable w.ledger hold key commit := fun hr => h hr.2.1

theorem ResolvedOnce.not_pending (h : ResolvedOnce w.ledger hold commit) :
    holdStatus w.ledger hold ≠ some .PENDING := by
  rw [h.1]
  simpa using resolvedStatus_ne commit

section Webhook

theorem wp_unmatched (hnone : locate w ctx draft data = none)
    (hout : data.direction = some .outgoing) (kind : Choice → Prop) :
    (applyTransaction ctx draft transitionTo data).wp (calm kind)
      (fun r w' => r = .ok .ignored ∧ w' = w) w := by
  unfold applyTransaction
  rw [Prog.bind_eq, Prog.wp_bind]
  refine Prog.wp_mono _ (wp_findTransaction_calm kind) fun r w' h => ?_
  obtain ⟨rfl, rfl⟩ := h
  rw [Prog.onOk_ok, hnone]
  simp only [hout, ne_eq, Option.some.injEq, reduceCtorEq, not_false_eq_true, if_true]
  exact ⟨rfl, rfl⟩

theorem wp_matched (hfound : locate w ctx draft data = some existing) {kind : Choice → Prop}
    {post : Except Thrown DraftOutcome → World → Prop}
    (h : (applyToExisting ctx draft data (data.status.getD transitionTo) existing).wp (calm kind)
      post w) : (applyTransaction ctx draft transitionTo data).wp (calm kind) post w := by
  unfold applyTransaction
  rw [Prog.bind_eq, Prog.wp_bind]
  refine Prog.wp_mono _ (wp_findTransaction_calm kind) fun r w' hr => ?_
  obtain ⟨rfl, rfl⟩ := hr
  rw [Prog.onOk_ok, hfound]
  exact h

theorem finish_carries (posted : Option String) (kind : Choice → Prop) :
    (finish ctx draft data incoming existing posted).wp (calm kind) (fun _ w' => Carries w w') w :=
  have hw : (finish ctx draft data incoming existing posted).Within progresses :=
    finish_within (fun q hq => by cases q <;> simp_all [progresses, Call.bookkeeping]) ctx draft data
      incoming existing posted trivial
  Prog.wp_mono _ (Prog.wp_of_meets Carries.refl Carries.trans
    (fun hq he => ⟨trivial, carries_of_env hq (env_of_calm he)⟩) hw w) fun _ _ h => h.2

/-- An event that completes on a payment of unknown outcome leaves a hold that
the reconciler can no longer resolve. -/
theorem webhook_takes (ctx : ApplyContext) (draft : CanonicalEventDraft) (data : PaymentEventData)
    (hp : Payment w operation transaction hold) (hu : operation.status = .UNKNOWN)
    (hk : Unused w commit operation.id)
    (hh : holdStatus w.ledger hold ≠ some .PENDING ∨ Unused w commit transaction.id)
    (hr : resolves incoming = some commit) (kind : Choice → Prop) :
    (applyToExisting ctx draft data incoming transaction).wp (calm kind)
      (fun r w' => (∃ o, r = .ok o) → ∃ transaction', transaction'.id = transaction.id ∧
        Taken w' operation transaction' hold commit) w := by
  have hend : ∀ v posted, Payment v operation transaction hold →
      holdStatus v.ledger hold ≠ some .PENDING → Unused v commit operation.id →
      (finish ctx draft data incoming transaction posted).wp (calm kind)
        (fun r w' => (∃ o, r = .ok o) → ∃ transaction', transaction'.id = transaction.id ∧
          Taken w' operation transaction' hold commit) v := by
    intro v posted hpv hv hkv
    refine Prog.wp_mono _ (finish_carries posted kind) fun r w' hc _ => ?_
    obtain ⟨transaction', hid, hp'⟩ := hpv.carry hc
    exact ⟨transaction', hid, hp', hu, by rwa [hc.ledger], by rwa [Unused, hc.ledger]⟩
  rw [applyToExisting_eq, hp.held, Prog.wp_bind]
  by_cases hres : Resolvable w.ledger hold (resolveKey commit transaction.id) commit
  · refine Prog.wp_mono _ (wp_holdResolution_ok kind hr hres) fun r w' h => ?_
    obtain ⟨posted, ledger, rfl, rfl, hs, _, hkeys⟩ := h
    have hp' : Payment { w with ledger } operation transaction hold :=
      ⟨hp.operationStored, hp.transactionStored, hp.key, hp.uniqueKey, hp.account, hp.held, hp.distinct⟩
    refine hend _ _ hp' ?_ (hkeys _ (resolveKey_ne hp.distinct) hk)
    rw [hs]
    simpa using resolvedStatus_ne commit
  · obtain hh | hh := hh
    · refine Prog.wp_mono _ (Prog.wp_env (fun _ _ _ _ => env_of_calm)
        (wp_holdResolution_unchanged fun h => ?_)) fun r w' hw => ?_
      · obtain ⟨h, c, hh', _, hrc⟩ := h
        rw [← Option.some.inj hh'] at hrc
        exact hh hrc.2.1
      · subst hw
        cases r with
        | error e => exact fun h => nomatch h
        | ok posted => exact hend _ _ hp hh hk
    · refine Prog.wp_mono _ (wp_holdResolution_error kind hr hres hh) fun r w' h => ?_
      obtain ⟨⟨e, rfl⟩, _⟩ := h
      exact fun h => nomatch h

theorem done_webhook_throws (hd : Done w operationId existing.id hold commit status accepted)
    (hfound : locate w ctx draft data = some existing) (hr : resolves incoming = some commit)
    (kind : Choice → Prop) :
    (applyToExisting ctx draft data incoming existing).wp (calm kind) (fun r _ => ∃ e, r = .error e)
      w := by
  obtain ⟨t, ht, hhold, _⟩ := hd.transaction
  obtain rfl : t = existing := Option.some.inj (ht.symm.trans (locate_stored hfound))
  rw [applyToExisting_eq, hhold, Prog.wp_bind]
  refine Prog.wp_mono _ (wp_holdResolution_error kind hr
    (not_resolvable (ResolvedOnce.not_pending hd.resolved)) hd.unusedTransaction) fun r w' h => ?_
  obtain ⟨⟨e, rfl⟩, _⟩ := h
  exact ⟨e, rfl⟩

end Webhook

section Reconciler

theorem final_of_resolves (hr : resolves status = some commit) :
    (operationStatus status).isFinal = true := by
  cases status <;> simp_all [resolves, operationStatus, isSettled, isFailed, OperationStatusValue.isFinal]

theorem done_reconcile (hd : Done w operationId transactionId hold commit status accepted)
    (kind : Choice → Prop) :
    (resolve operationId).wp (calm kind) (fun r w' => (∃ o, r = .ok o) ∧ w' = w) w := by
  obtain ⟨o, ho, hf⟩ := hd.operation
  have hs : o.status.isStuck = false := by
    cases hst : o.status <;> simp_all [OperationStatusValue.isFinal, OperationStatusValue.isStuck]
  unfold resolve
  refine wp_fixed (fun _ _ => congrArg (fun o => reply o w) ho) ?_
  simp only [Prog.onOk_ok, hs, Bool.false_eq_true, not_false_eq_true, if_true]
  exact ⟨⟨_, rfl⟩, rfl⟩

theorem taken_reconcile_throws (ht : Taken w operation transaction hold commit)
    {found : PixTransaction} (hl : remote.lookup w.provider transaction = some found)
    (hr : resolves found.status = some commit) :
    (resolve operation.id).wp (calm remote.answers) (fun r _ => ∃ e, r = .error e) w :=
  resolve_reaches ht.toPayment (by rw [ht.unknown]; rfl) hl
    (applyOutcome_throws ht.held hr (not_resolvable ht.resolved) ht.unusedOperation)

theorem live_reconcile_throws (h : Live w operation transaction hold commit) {found : PixTransaction}
    (hl : remote.lookup w.provider transaction = some found) (hr : resolves found.status = some commit)
    (hres : ¬ Resolvable w.ledger hold (resolveKey commit operation.id) commit) :
    (resolve operation.id).wp (calm remote.answers) (fun r _ => ∃ e, r = .error e) w :=
  resolve_reaches h.toPayment (by rw [h.unknown]; rfl) hl
    (applyOutcome_throws h.held hr hres h.unusedOperation)

/-- A run on a live payment whose resolution the engine takes up. -/
theorem live_reconcile (h : Live w operation transaction hold commit) {found : PixTransaction}
    (hl : remote.lookup w.provider transaction = some found) (hr : resolves found.status = some commit)
    (hres : Resolvable w.ledger hold (resolveKey commit operation.id) commit) :
    (resolve operation.id).wp (calm remote.answers)
      (fun r w' => (Accepts w transaction found remote.now → ∃ o, r = .ok o) ∧
        ∀ o, r = .ok o → Done w' operation.id transaction.id hold commit found.status
          (Accepts w transaction found remote.now)) w := by
  refine resolve_reaches h.toPayment (by rw [h.unknown]; rfl) hl ?_
  unfold applyOutcome
  refine wp_fixed (fun c hc => congrArg (fun now => reply now _) hc.1) ?_
  rw [Prog.onOk_ok, resolveHold_eq, h.held, Prog.bind_eq, Prog.wp_bind]
  refine Prog.wp_mono _ (wp_holdResolution_ok _ hr hres) fun r v hv => ?_
  obtain ⟨posted, ledger, rfl, rfl, _, honce, hkeys⟩ := hv
  have hstored : (w.operations.put (operation.update ⟨operation.id, none, none, none, true⟩)).get
      operation.id = some (operation.update ⟨operation.id, none, none, none, true⟩) :=
    Rows.get_put_self _ _
  have hrecord := wp_recordOutcome (w := { w with
      ledger, operations := w.operations.put (operation.update ⟨operation.id, none, none, none, true⟩) })
    remote.answers found hstored h.transactionStored remote.now (some posted)
  refine Prog.wp_mono _ hrecord fun r w' hw => ⟨hw.1, fun o ho => ?_⟩
  obtain ⟨hledger, ⟨o', ho', hos⟩, t, ht, hhold, hst⟩ := hw.2 o ho
  refine ⟨⟨o', ho', ?_⟩, by rw [hledger]; exact honce h.unresolved, ?_, t, ht, hhold.trans h.held, hst⟩
  · rw [hos]
    exact final_of_resolves hr
  · rw [Unused, hledger]
    exact hkeys _ (resolveKey_ne h.distinct.symm) h.unusedTransaction

end Reconciler

/-- One visit to a payment: an event, or a reconciler run with what it is answered. -/
inductive Visit
  | webhook (ctx : ApplyContext) (draft : CanonicalEventDraft) (transitionTo : TransactionStatus)
      (data : PaymentEventData)
  | reconcile (remote : Remote)

/-- The visit runs from one world to the next, to its end or into a throw. -/
def Visit.Goes (operationId : String) : Visit → World → Bool → World → Prop
  | .webhook ctx draft transitionTo data, w, completed, w' => ∃ r,
    (applyTransaction ctx draft transitionTo data).Runs (calm fun _ => True) w r w' ∧
      r.isOk = completed
  | .reconcile remote, w, completed, w' => ∃ r,
    (resolve operationId).Runs (calm remote.answers) w r w' ∧ r.isOk = completed

/-- The visit is about the payment and carries the final status. -/
def Visit.Carries (status : TransactionStatus) (transactionId : String) : Visit → World → Prop
  | .webhook ctx draft transitionTo data, w => data.direction = some .outgoing ∧
    data.status.getD transitionTo = status ∧ ∀ t, locate w ctx draft data = some t → t.id = transactionId
  | .reconcile remote, w => ∀ t, w.transactions.get transactionId = some t →
    ∃ found, remote.lookup w.provider t = some found ∧ found.status = status

/-- The event finds the transaction. -/
def Visit.Matched : Visit → World → Prop
  | .webhook ctx draft _ data, w => locate w ctx draft data ≠ none
  | .reconcile _, _ => False

structure Moment where
  visit : Visit
  before : World
  completed : Bool

inductive Run (operationId transactionId : String) (status : TransactionStatus) :
    World → List Moment → World → Prop
  | nil (w : World) : Run operationId transactionId status w [] w
  | cons {visit : Visit} {w v w' : World} {completed : Bool} {moments : List Moment}
      (hcarries : visit.Carries status transactionId w) (hgo : visit.Goes operationId w completed v)
      (hrest : Run operationId transactionId status v moments w') :
      Run operationId transactionId status w (⟨visit, w, completed⟩ :: moments) w'

def firstRemote (moments : List Moment) : Option Remote :=
  moments.findSome? fun m => match m.visit with
    | .reconcile remote => some remote
    | .webhook .. => none

/-- Every visit completed, the hold is resolved once, and transaction and
operation have come to their end. -/
structure Converged (operationId transactionId hold : String) (commit : Bool)
    (status : TransactionStatus) (moments : List Moment) (w : World) : Prop where
  completed : ∀ m ∈ moments, m.completed = true
  resolved : ResolvedOnce w.ledger hold commit
  transaction : ∃ t, w.transactions.get transactionId = some t ∧ t.status = status
  operation : ∃ o, w.operations.get operationId = some o ∧ o.status ≠ .UNKNOWN

variable {moments : List Moment} {visit : Visit} {completed : Bool} {v : World}

theorem completed_of_wp {α : Type} {p : Flow α} {env : Prog.Env Call Answer Thrown World}
    {r : Except Thrown α} (hrun : p.Runs env w r w') (hw : p.wp env (fun r _ => ∃ e, r = .error e) w) :
    r.isOk = false := by
  obtain ⟨e, rfl⟩ := hrun.of_wp hw
  rfl

theorem ok_of_isOk {α : Type} {r : Except Thrown α} (h : r.isOk = true) : ∃ a, r = .ok a := by
  cases r with
  | ok a => exact ⟨a, rfl⟩
  | error e => simp [Except.isOk, Except.toBool] at h

theorem unmatched_goes (hcarries : visit.Carries status transactionId w)
    (hgo : visit.Goes operationId w completed v) (hweb : ∃ c d t e, visit = .webhook c d t e)
    (hn : ¬ visit.Matched w) : v = w ∧ completed = true := by
  obtain ⟨ctx, draft, transitionTo, data, rfl⟩ := hweb
  obtain ⟨r, hrun, rfl⟩ := hgo
  obtain ⟨rfl, rfl⟩ := hrun.of_wp (wp_unmatched (not_not.mp hn) hcarries.1 _)
  exact ⟨rfl, rfl⟩

theorem matched_stored (hcarries : (Visit.webhook ctx draft transitionTo data).Carries status
    transaction.id w) (hm : (Visit.webhook ctx draft transitionTo data).Matched w)
    (ht : w.transactions.get transaction.id = some transaction) :
    locate w ctx draft data = some transaction := by
  obtain ⟨existing, hfound⟩ := Option.ne_none_iff_exists'.mp hm
  have hs := locate_stored hfound
  rw [hcarries.2.2 existing hfound, ht] at hs
  rw [hfound, Option.some.inj hs]

theorem matched_goes (hp : Payment w operation transaction hold) (hu : operation.status = .UNKNOWN)
    (hk : Unused w commit operation.id)
    (hh : holdStatus w.ledger hold ≠ some .PENDING ∨ Unused w commit transaction.id)
    (hr : resolves status = some commit)
    (hcarries : (Visit.webhook ctx draft transitionTo data).Carries status transaction.id w)
    (hm : (Visit.webhook ctx draft transitionTo data).Matched w)
    (hgo : (Visit.webhook ctx draft transitionTo data).Goes operationId w true v) :
    ∃ transaction', transaction'.id = transaction.id ∧ Taken v operation transaction' hold commit := by
  obtain ⟨r, hruns, hok⟩ := hgo
  have htakes := webhook_takes ctx draft data hp hu hk hh hr fun _ => True
  rw [← hcarries.2.1] at htakes
  exact hruns.of_wp (wp_matched (matched_stored hcarries hm hp.transactionStored) htakes) (ok_of_isOk hok)

/-- After a webhook has taken the hold, no run of visits ends well. -/
theorem taken_never (ht : Taken w operation transaction hold commit)
    (hr : resolves status = some commit)
    (hrun : Run operation.id transaction.id status w moments w') :
    ¬ Converged operation.id transaction.id hold commit status moments w' := by
  induction moments generalizing w transaction with
  | nil =>
    cases hrun
    rintro ⟨_, _, _, o, ho, hne⟩
    rw [ht.operationStored, Option.some.injEq] at ho
    exact hne (ho ▸ ht.unknown)
  | cons m moments ih =>
    cases hrun with
    | cons hcarries hgo hrest =>
    rename_i visit v completed
    intro hconv
    have hdone : completed = true := hconv.completed _ (List.mem_cons_self ..)
    have htail : Converged operation.id transaction.id hold commit status moments w' :=
      ⟨fun m hm => hconv.completed m (List.mem_cons_of_mem _ hm), hconv.resolved, hconv.transaction,
        hconv.operation⟩
    cases visit with
    | webhook ctx draft transitionTo data =>
      by_cases hm : Visit.Matched (.webhook ctx draft transitionTo data) w
      · rw [hdone] at hgo
        obtain ⟨transaction', hid, ht'⟩ := matched_goes ht.toPayment ht.unknown ht.unusedOperation
          (.inl ht.resolved) hr hcarries hm hgo
        rw [← hid] at hrest htail
        exact ih ht' hrest htail
      · obtain ⟨rfl, _⟩ := unmatched_goes hcarries hgo ⟨_, _, _, _, rfl⟩ hm
        exact ih ht hrest htail
    | reconcile remote =>
      obtain ⟨found, hl, hs⟩ := hcarries transaction ht.transactionStored
      obtain ⟨r, hruns, hok⟩ := hgo
      have hf := completed_of_wp hruns (taken_reconcile_throws ht hl (by rwa [hs]))
      rw [hok, hdone] at hf
      exact Bool.noConfusion hf

/-- After the reconciler has run, further runs change nothing and any event that
finds the transaction throws. -/
theorem done_run (hd : Done w operationId transactionId hold commit status accepted)
    (hr : resolves status = some commit)
    (hrun : Run operationId transactionId status w moments w') :
    ((∀ m ∈ moments, m.completed = true) ↔ ∀ m ∈ moments, ¬ m.visit.Matched m.before) ∧
      ((∀ m ∈ moments, ¬ m.visit.Matched m.before) → w' = w) := by
  induction moments with
  | nil =>
    cases hrun
    simp
  | cons m moments ih =>
    cases hrun with
    | cons hcarries hgo hrest =>
    rename_i visit v completed
    cases visit with
    | webhook ctx draft transitionTo data =>
      by_cases hm : Visit.Matched (.webhook ctx draft transitionTo data) w
      · obtain ⟨t, ht, _⟩ := hd.transaction
        have hid : t.id = transactionId := Rows.key_of_get ht
        rw [← hid] at hcarries ht hd
        have hfound := matched_stored hcarries hm ht
        obtain ⟨r, hruns, rfl⟩ := hgo
        have hthrows := done_webhook_throws hd hfound hr fun _ => True
        rw [← hcarries.2.1] at hthrows
        have hf := completed_of_wp hruns (wp_matched hfound hthrows)
        simp [hf, hm]
      · obtain ⟨rfl, rfl⟩ := unmatched_goes hcarries hgo ⟨_, _, _, _, rfl⟩ hm
        simpa [hm] using ih hrest
    | reconcile remote =>
      obtain ⟨r, hruns, rfl⟩ := hgo
      obtain ⟨⟨o, rfl⟩, rfl⟩ := hruns.of_wp (done_reconcile hd _)
      simpa [Visit.Matched, Except.isOk, Except.toBool] using ih hrest

/-- Webhook and reconciler converge on a payment exactly when no event finds the
transaction and the first reconciler run is taken up by the engine and the guard. -/
theorem webhook_and_reconciler_converge (hlive : Live w operation transaction hold commit)
    (hr : resolves status = some commit)
    (hrun : Run operation.id transaction.id status w moments w') :
    Converged operation.id transaction.id hold commit status moments w' ↔
      (∀ m ∈ moments, ¬ m.visit.Matched m.before) ∧
        ∃ remote found, firstRemote moments = some remote ∧
          remote.lookup w.provider transaction = some found ∧
          Resolvable w.ledger hold (resolveKey commit operation.id) commit ∧
          Accepts w transaction found remote.now := by
  induction moments with
  | nil =>
    cases hrun
    refine ⟨fun h => ?_, fun h => ?_⟩
    · obtain ⟨o, ho, hne⟩ := h.operation
      rw [hlive.operationStored, Option.some.injEq] at ho
      exact absurd (ho ▸ hlive.unknown) hne
    · obtain ⟨_, remote, found, h, _⟩ := h
      simp [firstRemote] at h
  | cons m moments ih =>
    cases hrun with
    | cons hcarries hgo hrest =>
    rename_i visit v completed
    cases visit with
    | webhook ctx draft transitionTo data =>
      by_cases hm : Visit.Matched (.webhook ctx draft transitionTo data) w
      · refine ⟨fun h => ?_, fun h => absurd hm (h.1 _ (List.mem_cons_self ..))⟩
        rw [show completed = true from h.completed _ (List.mem_cons_self ..)] at hgo
        obtain ⟨transaction', hid, ht'⟩ := matched_goes hlive.toPayment hlive.unknown
          hlive.unusedOperation (.inr hlive.unusedTransaction) hr hcarries hm hgo
        rw [← hid] at hrest h
        exact absurd ⟨fun m hm => h.completed m (List.mem_cons_of_mem _ hm), h.resolved, h.transaction,
          h.operation⟩ (taken_never ht' hr hrest)
      · obtain ⟨rfl, rfl⟩ := unmatched_goes hcarries hgo ⟨_, _, _, _, rfl⟩ hm
        have htail := ih hrest
        have hfirst : firstRemote (⟨.webhook ctx draft transitionTo data, v, true⟩ :: moments) =
            firstRemote moments := rfl
        rw [hfirst]
        simp only [List.forall_mem_cons, hm, not_false_eq_true, true_and]
        rw [← htail]
        exact ⟨fun h => ⟨fun m hm => h.completed m (List.mem_cons_of_mem _ hm), h.resolved,
          h.transaction, h.operation⟩, fun h => ⟨List.forall_mem_cons.mpr ⟨rfl, h.completed⟩, h.resolved,
          h.transaction, h.operation⟩⟩
    | reconcile remote =>
      obtain ⟨found, hl, rfl⟩ := hcarries transaction hlive.transactionStored
      obtain ⟨r, hruns, rfl⟩ := hgo
      have hfirst : firstRemote (⟨.reconcile remote, w, r.isOk⟩ :: moments) = some remote := rfl
      have hiff : (∃ remote' found', firstRemote (⟨.reconcile remote, w, r.isOk⟩ :: moments) = some remote' ∧
          remote'.lookup w.provider transaction = some found' ∧
          Resolvable w.ledger hold (resolveKey commit operation.id) commit ∧
          Accepts w transaction found' remote'.now) ↔
          Resolvable w.ledger hold (resolveKey commit operation.id) commit ∧
            Accepts w transaction found remote.now := by
        simp [hfirst, hl]
      rw [hiff]
      simp only [List.forall_mem_cons, Visit.Matched, not_false_eq_true, true_and]
      by_cases hres : Resolvable w.ledger hold (resolveKey commit operation.id) commit
      · have hw := hruns.of_wp (live_reconcile hlive hl hr hres)
        cases r with
        | error e =>
          refine ⟨fun h => absurd (h.completed _ (List.mem_cons_self ..))
            (by simp [Except.isOk, Except.toBool]),
            fun h => ?_⟩
          obtain ⟨o, ho⟩ := hw.1 h.2.2
          exact nomatch ho
        | ok o =>
          have hdone := hw.2 o rfl
          obtain ⟨hiffs, hsame⟩ := done_run hdone hr hrest
          obtain ⟨t, ht, _, hst⟩ := hdone.transaction
          constructor
          · intro h
            have hn := hiffs.mp fun m hm => h.completed m (List.mem_cons_of_mem _ hm)
            obtain ⟨t', ht', hs'⟩ := h.transaction
            rw [hsame hn, ht, Option.some.injEq] at ht'
            exact ⟨hn, hres, hst.mp (ht' ▸ hs')⟩
          · rintro ⟨hn, _, hacc⟩
            obtain ⟨o', ho', hf⟩ := hdone.operation
            rw [hsame hn]
            refine ⟨List.forall_mem_cons.mpr ⟨rfl, hiffs.mpr hn⟩, hdone.resolved, ⟨t, ht, hst.mpr hacc⟩,
              o', ho', fun hu => by simp [hu, OperationStatusValue.isFinal] at hf⟩
      · have hf := completed_of_wp hruns (live_reconcile_throws hlive hl hr hres)
        exact ⟨fun h => absurd (h.completed _ (List.mem_cons_self ..)) (by simp [hf]),
          fun h => absurd h.2.1 hres⟩

section Sample

open BaasConnector.Pix.Transfers

theorem unknownWorld_live :
    Live unknownWorld (unknownTransfer) unknownTransaction "ltx_1" true where
  operationStored := rfl
  transactionStored := rfl
  key := rfl
  uniqueKey id t h hkey := by
    have hall := (Rows.forall_get (p := fun t => t.idempotencyKey = some "opr_1" → t.id = "txn_1")).mpr
      (show ∀ v ∈ unknownWorld.transactions.table.values, v.idempotencyKey = some "opr_1" → v.id = "txn_1"
        by decide) id t h hkey
    rw [← Rows.key_of_get h, hall]
    rfl
  account := ⟨sampleAccount, rfl, rfl⟩
  held := rfl
  distinct := by decide
  unknown := rfl
  pending := by decide
  unresolved := Rows.forall_get.mpr (by decide)
  unusedOperation := by unfold Unused; decide
  unusedTransaction := by unfold Unused; decide

/-- The provider knows the payment as settled, with its E2EID. -/
def settledRemote : Remote :=
  { now := 2000
    found := .ok (some ⟨"ptx_1", some "E1", .SETTLED, some 1900, none⟩)
    got := .error (.failure "")
    lines := .ok [] }

def settledFix (c : Choice) : Choice :=
  { c with
    fault := none, instant := settledRemote.now, found := settledRemote.found
    got := settledRemote.got, lines := settledRemote.lines }

theorem settledFix_answers (c : Choice) :
    (settledFix c).fault = none ∧ settledRemote.answers (settledFix c) := ⟨rfl, rfl, rfl, rfl, rfl⟩

theorem calm_any (c : Choice) : ({ c with fault := none } : Choice).fault = none ∧ True := ⟨rfl, trivial⟩

def reconcileScript : List Choice :=
  [{}, {}, {}, {}, {}, {}, {}, { mint := sampleMint "ltx_2" }, {}, {}, {}]

theorem settledRemote_carries : (Visit.reconcile settledRemote).Carries .SETTLED "txn_1" unknownWorld := by
  intro t _
  exact ⟨⟨"ptx_1", some "E1", .SETTLED, some 1900, none⟩, rfl, rfl⟩

def settledData : PaymentEventData := ⟨none, some .outgoing, some .SETTLED, none, some "E1", some 1900⟩

def settledEvent : Visit :=
  .webhook ⟨"con_1", "MOCK_BANK", 2100, none⟩
    ⟨"PIX_OUT_SETTLED", "ptx_1", .transaction .SETTLED settledData, some 1900⟩ .SETTLED settledData

/-- The settlement event comes before the ids that it names are stored and finds
nothing; the reconciler run that follows settles the payment. -/
theorem webhook_and_reconciler_converge_early : ∃ w' v,
    Converged "opr_1" "txn_1" "ltx_1" true .SETTLED
      [⟨settledEvent, unknownWorld, true⟩, ⟨.reconcile settledRemote, v, true⟩] w' := by
  have hearly : locate unknownWorld ⟨"con_1", "MOCK_BANK", 2100, none⟩
      ⟨"PIX_OUT_SETTLED", "ptx_1", .transaction .SETTLED settledData, some 1900⟩ settledData = none := rfl
  have hrun : ∃ w' v, Run "opr_1" "txn_1" .SETTLED unknownWorld
      [⟨settledEvent, unknownWorld, true⟩, ⟨.reconcile settledRemote, v, true⟩] w' ∧ v = unknownWorld := by
    refine ⟨_, unknownWorld, .cons ⟨rfl, rfl, fun t ht => ?_⟩
      ⟨_, runs_calm (fun c => { c with fault := none }) calm_any [{}, {}] rfl, rfl⟩
      (.cons settledRemote_carries ⟨_, runs_calm settledFix settledFix_answers reconcileScript rfl, rfl⟩
        (.nil _)), rfl⟩
    rw [hearly] at ht
    cases ht
  obtain ⟨w', v, hrun, rfl⟩ := hrun
  refine ⟨w', unknownWorld, (webhook_and_reconciler_converge unknownWorld_live rfl hrun).mpr
    ⟨fun m hm => ?_, settledRemote, _, rfl, rfl, by decide, .inr ⟨by decide, rfl⟩⟩⟩
  simp only [List.mem_cons, List.not_mem_nil, or_false] at hm
  obtain rfl | rfl := hm
  · exact fun h => h hearly
  · exact fun h => h

/-- The reconciler settles the hold under the operation's key. The settlement
event that follows asks for it under the transaction's key and throws. -/
theorem webhook_after_reconciler_throws :
    ¬ ∀ (w w' : World) (operation : OperationRecord) (transaction : TransactionRecord) (hold : String)
      (commit : Bool) (status : TransactionStatus) (moments : List Moment),
      Live w operation transaction hold commit → resolves status = some commit →
      Run operation.id transaction.id status w moments w' → moments ≠ [] →
      Converged operation.id transaction.id hold commit status moments w' := by
  intro h
  have hrun : ∃ v w', Run "opr_1" "txn_1" .SETTLED unknownWorld
      [⟨.reconcile settledRemote, unknownWorld, true⟩, ⟨settledEvent, v, false⟩] w' := by
    refine ⟨_, _, .cons settledRemote_carries
      ⟨_, runs_calm settledFix settledFix_answers reconcileScript rfl, rfl⟩ (.cons ?_
      ⟨_, runs_calm (fun c => { c with fault := none }) calm_any
        [{}, {}, { mint := sampleMint "ltx_3" }] rfl, rfl⟩ (.nil _))⟩
    refine ⟨rfl, rfl, fun t ht => ?_⟩
    cases ht
    rfl
  obtain ⟨v, w', hrun⟩ := hrun
  have hconv := h unknownWorld w' _ _ "ltx_1" true .SETTLED _ unknownWorld_live rfl hrun (by simp)
  exact absurd (hconv.completed ⟨settledEvent, v, false⟩ (by simp)) (by simp)

end Sample

end BaasConnector.Pix.Orders
