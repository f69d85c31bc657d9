import BaasConnector.Lib.Footprint
import BaasConnector.Pix.Convergence
import BaasConnector.Pix.HoldAgreement

namespace BaasConnector.Pix.ResolutionEvents

open BaasConnector.Lib.Keyed hiding lookup
open BaasConnector.Lib.Effects BaasConnector.Taxonomy.Status BaasConnector.Taxonomy.Errors
open BaasConnector.Ledger.Types BaasConnector.Ledger.MemoryStore BaasConnector.Ledger.Holds
open BaasConnector.Connector.Records BaasConnector.Connector.Calls BaasConnector.Connector.Database
open BaasConnector.Connector.Replies BaasConnector.Connector.Calm BaasConnector.Pix.HoldResolution
open BaasConnector.Pix.OperationReconciler BaasConnector.Pix.HoldAgreement
open BaasConnector.Pix.Convergence

inductive EventType
  | PIX_OUT_SETTLED | PIX_OUT_FAILED
deriving DecidableEq, Repr

/-- The event that `applyOutcome` appends within the transaction of its status write. -/
def outcomeEvent (status : TransactionStatus) : EventType :=
  if isSettled status then .PIX_OUT_SETTLED else .PIX_OUT_FAILED

def emits : (q : Call) → Except Thrown (Answer q) → List EventType
  | .transactionApplyStatusChange change, .ok (.applied _) => [outcomeEvent change.toStatus]
  | _, _ => []

/-- A reconciler run with the events that it leaves in the outbox. -/
abbrev recorded (remote : Remote) : Prog.Env Call Answer Thrown (World × List EventType) :=
  Prog.taped (calm remote.answers) emits

section Truth

variable (w : World) (operation : OperationRecord)

def operationTransaction : Option TransactionRecord :=
  w.transactions.search fun t => t.idempotencyKey == some operation.providerIdempotencyKey

/-- The stored status, in a later world, of the transaction of the operation. -/
def statusIn (w' : World) : Option TransactionStatus :=
  (operationTransaction w operation).bind fun t => (w'.transactions.get t.id).map (·.status)

/-- The hold of the operation was pending before and has this status after. -/
def Turned (w' : World) (status : LedgerTransactionStatus) : Prop :=
  ∃ hold, (operationTransaction w operation).bind (·.ledgerPendingTransactionId) = some hold ∧
    holdStatus w.ledger hold = some .PENDING ∧ holdStatus w'.ledger hold = some status

structure Truthful (s : World × List EventType) : Prop where
  settled : EventType.PIX_OUT_SETTLED ∈ s.2 → statusIn w operation s.1 = some .SETTLED
  failed : EventType.PIX_OUT_FAILED ∈ s.2 →
    statusIn w operation s.1 = some .FAILED ∨ statusIn w operation s.1 = some .CANCELLED
  committed : Turned w operation s.1 .POSTED → statusIn w operation s.1 = some .SETTLED
  voided : Turned w operation s.1 .VOIDED →
    statusIn w operation s.1 = some .FAILED ∨ statusIn w operation s.1 = some .CANCELLED

end Truth

/-- The status write goes through: the guard takes the status up and no other
transaction carries the end-to-end id. -/
def Applies (w : World) (t : TransactionRecord) (found : PixTransaction) (now : Int) : Prop :=
  t.guard found.status now = none ∧
    (w.transactions.search fun u => u.id != t.id && taken u.endToEndId found.endToEndId) = none

instance (w : World) (t : TransactionRecord) (found : PixTransaction) (now : Int) :
    Decidable (Applies w t found now) := by
  unfold Applies
  infer_instance

/-- A status that resolves no hold is not written, and one that resolves the
hold is written or says what the stored status says already. -/
def LinesUp (w : World) (operationId : String) (t : TransactionRecord) (found : PixTransaction)
    (now : Int) : Prop :=
  match resolves found.status with
  | none => ¬ Applies w t found now
  | some commit => ResolvesHold w.ledger t.ledgerPendingTransactionId found.status operationId →
      Applies w t found now ∨ resolves t.status = some commit

/-- The transaction of the operation, and what the provider says of it. -/
def Found (remote : Remote) (w : World) (operation : OperationRecord) (t : TransactionRecord)
    (found : PixTransaction) : Prop :=
  operationTransaction w operation = some t ∧
    ((w.accounts.get t.accountId).bind (·.providerAccountId)).isSome ∧
    remote.lookup w.provider t = some found

variable {remote : Remote} {w w' : World} {operation : OperationRecord} {t : TransactionRecord}
  {found : PixTransaction}

theorem silent_aside {q : Call} (hq : Call.aside q) : Prog.Silent emits q := by
  intro r
  cases q <;> simp [Call.aside, Call.touchesTransactions] at hq <;> rfl

theorem silent_ledger (command : Ledger.Shadow.LedgerCommand) : Prog.Silent emits (.ledger command) :=
  fun _ => rfl

theorem silent_of_aside {α : Type} {p : Flow α} (hp : p.Within Call.aside) :
    p.Within (Prog.Silent emits) :=
  Prog.meets_mono (fun _ _ h => h) (fun _ h => silent_aside h) (fun _ h => h) hp

/-- A part of the run that neither the ledger nor a transaction can tell. -/
theorem wp_recorded_aside {α β : Type} {p : Flow α} {f : α → Flow β} {tape : List EventType}
    {post : Except Thrown β → World × List EventType → Prop} (hp : p.Within Call.aside)
    (hok : ∀ a w', Same w w' → (f a).wp (recorded remote) post (w', tape))
    (herror : ∀ e w', Same w w' → post (.error e) (w', tape)) :
    (p.bind f).wp (recorded remote) post (w, tape) := by
  refine Prog.wp_taped_bind (silent_of_aside hp) (Prog.wp_mono _ (wp_aside hp) fun r w' h => ?_)
  cases r with
  | ok a => exact hok a w' h
  | error e => exact herror e w' h

/-- What one call of the status write leaves behind. -/
theorem wp_write (hget : w.transactions.get t.id = some t) {change : TransactionStatusChange}
    (hid : change.transactionId = t.id) (hto : change.toStatus = found.status)
    (hat : change.occurredAt = remote.now) (hend : change.endToEndId = found.endToEndId)
    {r : Except Thrown (StatusChangeResult TransactionStatus TransactionRecord)}
    (he : calm remote.answers w (.transactionApplyStatusChange change) r w') :
    w'.ledger = w.ledger ∧
      ((Applies w t found remote.now ∧
        emits (.transactionApplyStatusChange change) r = [outcomeEvent found.status] ∧
        (w'.transactions.get t.id).map (·.status) = some found.status) ∨
      (¬ Applies w t found remote.now ∧ emits (.transactionApplyStatusChange change) r = [] ∧
        (w'.transactions.get t.id).map (·.status) = some t.status)) := by
  obtain ⟨c, _, _, hc⟩ := he
  change w.changeTransaction change = some (r, w') at hc
  by_cases ha : Applies w t found remote.now
  · rw [changeTransaction_applied (hid ▸ hget) (by rw [hto, hat]; exact ha.1)
      (by rw [hend]; exact ha.2)] at hc
    simp only [reply, Option.some.injEq, Prod.mk.injEq] at hc
    obtain ⟨rfl, rfl⟩ := hc
    have hput : (w.transactions.put (t.change change)).get t.id = some (t.change change) :=
      Rows.get_put_self _ (t.change change)
    refine ⟨rfl, .inl ⟨ha, by rw [← hto]; rfl, ?_⟩⟩
    rw [hput, ← hto]
    rfl
  · obtain ⟨hr, hw⟩ : (∀ record, r ≠ .ok (.applied record)) ∧ w' = w := by
      obtain hkept | ⟨u, hu, hg, hr, hw⟩ := changeTransaction_cases hc
      · exact hkept
      · rw [hid, hget, Option.some.injEq] at hu
        subst hu
        rw [hto, hat] at hg
        have hs : (w.transactions.search fun u =>
            u.id != t.id && taken u.endToEndId change.endToEndId).isSome = true := by
          rw [hend, Option.isSome_iff_ne_none]
          exact fun hnone => ha ⟨hg, hnone⟩
        rw [World.changeTransaction, hid, hget] at hc
        simp only [hto, hat, hg, hs, if_true, refuse, Option.some.injEq, Prod.mk.injEq] at hc
        rw [← hc.1] at hr
        cases hr
    refine ⟨by rw [hw], .inr ⟨ha, ?_, by rw [hw, hget]; rfl⟩⟩
    cases r with
    | error e => rfl
    | ok result =>
      cases result with
      | applied record => exact absurd rfl (hr record)
      | rejected reason current => rfl

/-- What a run that has the provider's answer comes to. -/
structure Outcome (w : World) (operationId : String) (t : TransactionRecord) (found : PixTransaction)
    (now : Int) (s : World × List EventType) : Prop where
  resolved : ResolvesHold w.ledger t.ledgerPendingTransactionId found.status operationId →
    ∃ hold commit, t.ledgerPendingTransactionId = some hold ∧ resolves found.status = some commit ∧
      holdStatus w.ledger hold = some .PENDING ∧
      holdStatus s.1.ledger hold = some (resolvedStatus commit)
  kept : ¬ ResolvesHold w.ledger t.ledgerPendingTransactionId found.status operationId →
    s.1.ledger = w.ledger
  written : (Applies w t found now ∧ s.2 = [outcomeEvent found.status] ∧
      (s.1.transactions.get t.id).map (·.status) = some found.status) ∨
    (s.2 = [] ∧ (s.1.transactions.get t.id).map (·.status) = some t.status ∧
      (Applies w t found now → (resolves found.status).isSome ∧
        ¬ ResolvesHold w.ledger t.ledgerPendingTransactionId found.status operationId))

/-- The ledger side of the outcome, which comes first. -/
structure HoldOutcome (w : World) (hold : Option String) (status : TransactionStatus)
    (operationId : String) (r : Except Thrown (Option String)) (w' : World) : Prop where
  resolved : ResolvesHold w.ledger hold status operationId → (∃ posted, r = .ok posted) ∧
    ∃ h commit, hold = some h ∧ resolves status = some commit ∧ holdStatus w.ledger h = some .PENDING ∧
      holdStatus w'.ledger h = some (resolvedStatus commit)
  kept : ¬ ResolvesHold w.ledger hold status operationId → w'.ledger = w.ledger
  transactions : w'.transactions = w.transactions
  undecided : resolves status = none → ∃ posted, r = .ok posted

theorem wp_holdOutcome (hold : Option String) (status : TransactionStatus) (operationId : String) :
    (holdResolution hold status operationId).wp (calm remote.answers)
      (HoldOutcome w hold status operationId) w := by
  by_cases hres : ResolvesHold w.ledger hold status operationId
  · obtain ⟨h, commit, rfl, hr, hc⟩ := hres
    have hres : ResolvesHold w.ledger (some h) status operationId := ⟨h, commit, rfl, hr, hc⟩
    refine Prog.wp_mono _ (wp_holdResolution_ok remote.answers hr hc) fun r w' hrun => ?_
    obtain ⟨posted, ledger, rfl, rfl, hst, -⟩ := hrun
    exact ⟨fun _ => ⟨⟨_, rfl⟩, h, commit, rfl, hr, hc.2.1, hst⟩, fun hn => absurd hres hn, rfl,
      fun _ => ⟨_, rfl⟩⟩
  · have hkept := wp_holdResolution_unchanged (w := w) hres
    cases hr : resolves status with
    | none =>
      have hpure : holdResolution hold status operationId = .pure none := by
        unfold holdResolution
        rw [hr]
        cases hold <;> rfl
      rw [hpure]
      exact ⟨fun h => absurd h hres, fun _ => rfl, rfl, fun _ => ⟨_, rfl⟩⟩
    | some commit =>
      refine Prog.wp_mono _ (Prog.wp_env (fun _ _ _ _ => env_of_calm) hkept) fun r w' h => ?_
      subst h
      exact ⟨fun h => absurd h hres, fun _ => rfl, rfl, fun h => by simp [hr] at h⟩

theorem Applies.same (h : w'.transactions = w.transactions) {now : Int} :
    Applies w' t found now ↔ Applies w t found now := by
  rw [Applies, h]
  rfl

theorem wp_applyOutcome (hget : w.transactions.get t.id = some t) :
    (applyOutcome operation t found).wp (recorded remote)
      (fun _ => Outcome w operation.id t found remote.now) (w, []) := by
  unfold applyOutcome recordOutcome
  refine Prog.wp_taped_perform ?_
  rintro r w' ⟨c, _, hk, hc⟩
  unfold respond at hc
  simp only [reply, Option.some.injEq, Prod.mk.injEq] at hc
  obtain ⟨rfl, rfl⟩ := hc
  rw [Prog.onOk_ok, resolveHold_eq, Prog.bind_eq, hk.1]
  have hsilent : (holdResolution t.ledgerPendingTransactionId found.status operation.id).Within
      (Prog.Silent emits) := holdResolution_meets silent_ledger _ _ _
  refine Prog.wp_taped_bind hsilent (Prog.wp_mono _ (wp_holdOutcome _ _ _) fun r v hv => ?_)
  have hget' : v.transactions.get t.id = some t := by rw [hv.transactions, hget]
  cases r with
  | error e =>
    refine ⟨fun h => ?_, hv.kept, .inr ⟨rfl, by rw [hget']; rfl, fun _ => ⟨?_, fun h => ?_⟩⟩⟩
    · obtain ⟨⟨posted, h⟩, _⟩ := hv.resolved h
      cases h
    · cases hr : resolves found.status with
      | none =>
        obtain ⟨posted, h⟩ := hv.undecided hr
        cases h
      | some commit => rfl
    · obtain ⟨⟨posted, h⟩, _⟩ := hv.resolved h
      cases h
  | ok posted =>
    rw [Prog.onOk_ok]
    refine Prog.wp_taped_perform fun r v' he => ?_
    obtain ⟨hledger, hwrite⟩ := wp_write hget' rfl rfl rfl rfl he
    have hout : ∀ (u : World), Same v' u → Outcome w operation.id t found remote.now
        (u, [] ++ emits (.transactionApplyStatusChange (outcomeChange t found posted remote.now)) r) := by
      intro u hu
      rw [Applies.same hv.transactions] at hwrite
      refine ⟨fun h => ?_, fun h => ?_, ?_⟩
      · rw [hu.ledger, hledger]
        exact (hv.resolved h).2
      · rw [hu.ledger, hledger]
        exact hv.kept h
      · rw [hu.transactions, List.nil_append]
        obtain ⟨ha, hem, hst⟩ | ⟨ha, hem, hst⟩ := hwrite
        · exact .inl ⟨ha, hem, hst⟩
        · exact .inr ⟨hem, hst, fun h => absurd h ha⟩
    cases r with
    | error e => exact hout v' ⟨rfl, rfl⟩
    | ok change =>
      rw [Prog.onOk_ok]
      refine wp_recorded_aside (aside_ask ⟨rfl, rfl⟩) (fun _ u hu => ?_) fun _ u hu => hout u hu
      refine wp_recorded_aside (aside_ask ⟨rfl, rfl⟩) (fun _ x hx => ?_) fun _ x hx =>
        hout x ⟨hx.ledger.trans hu.ledger, hx.transactions.trans hu.transactions⟩
      have hx := hout x ⟨hx.ledger.trans hu.ledger, hx.transactions.trans hu.transactions⟩
      cases change with
      | applied record => exact hx
      | rejected reason current => exact hx

theorem Outcome.same {now : Int} {s : World × List EventType}
    (ho : Outcome w' operation.id t found now s) (h : Same w w') :
    Outcome w operation.id t found now s where
  resolved := by
    rw [← h.ledger]
    exact ho.resolved
  kept := by
    rw [← h.ledger]
    exact ho.kept
  written := by
    rw [← h.ledger, ← Applies.same h.transactions]
    exact ho.written

theorem Found.unique {t' : TransactionRecord} {found' : PixTransaction}
    (h : Found remote w operation t found) (h' : Found remote w operation t' found') :
    t = t' ∧ found = found' := by
  have ht : t = t' := Option.some.inj (h.1.symm.trans h'.1)
  subst ht
  exact ⟨rfl, Option.some.inj (h.2.2.symm.trans h'.2.2)⟩

/-- A run over an operation that is stuck, up to the provider's answer. -/
theorem wp_resolve (hop : w.operations.get operation.id = some operation)
    (hstuck : operation.status.isStuck = true)
    {post : Except Thrown ReconcileOutcome → World × List EventType → Prop}
    (hnone : (∀ t found, ¬ Found remote w operation t found) → ∀ r w', Same w w' → post r (w', []))
    (hfound : ∀ t found w', Found remote w operation t found → Same w w' →
      (applyOutcome operation t found).wp (recorded remote) post (w', [])) :
    (resolve operation.id).wp (recorded remote) post (w, []) := by
  unfold resolve
  refine Prog.wp_taped_perform ?_
  rintro r w' ⟨c, _, _, hc⟩
  unfold respond at hc
  simp only [reply, hop, Option.some.injEq, Prod.mk.injEq] at hc
  obtain ⟨rfl, rfl⟩ := hc
  simp only [Prog.onOk_ok, hstuck, not_true_eq_false, if_false]
  refine Prog.wp_taped_perform ?_
  rintro r w' ⟨c, _, _, hc⟩
  unfold respond at hc
  simp only [reply, Option.some.injEq, Prod.mk.injEq] at hc
  obtain ⟨rfl, rfl⟩ := hc
  rw [Prog.onOk_ok]
  cases ht : operationTransaction w operation with
  | none =>
    rw [operationTransaction] at ht
    rw [ht]
    exact hnone (fun t found h => by simp [Found, operationTransaction, ht] at h) _ _ ⟨rfl, rfl⟩
  | some t =>
    have hsearch := ht
    rw [operationTransaction] at hsearch
    rw [hsearch]
    refine Prog.wp_taped_perform ?_
    rintro r w' ⟨c, _, _, hc⟩
    unfold respond at hc
    simp only [reply, Option.some.injEq, Prod.mk.injEq] at hc
    obtain ⟨rfl, rfl⟩ := hc
    rw [Prog.onOk_ok]
    cases ha : (w.accounts.get t.accountId).bind (·.providerAccountId) with
    | none =>
      refine hnone (fun u found h => ?_) _ _ ⟨rfl, rfl⟩
      have hu : u = t := by simpa [h.1] using ht
      have hsome := h.2.1
      rw [hu, ha] at hsome
      cases hsome
    | some providerAccountId =>
      refine Prog.wp_taped_perform ?_
      rintro r w' ⟨c, _, _, hc⟩
      unfold respond at hc
      simp only [reply, Option.some.injEq, Prod.mk.injEq] at hc
      obtain ⟨rfl, rfl⟩ := hc
      rw [Prog.onOk_ok]
      refine Prog.wp_taped_perform ?_
      rintro r w' ⟨c, _, _, hc⟩
      unfold respond at hc
      simp only [World.updateOperation, hop, reply, Option.some.injEq, Prod.mk.injEq] at hc
      obtain ⟨rfl, rfl⟩ := hc
      rw [Prog.onOk_ok]
      refine Prog.wp_taped_bind
        (lookup_within (fun _ _ _ => rfl) (fun _ _ _ => rfl) (fun _ _ => rfl) _ _ _ _)
        (Prog.wp_mono _ wp_lookup fun r v h => ?_)
      obtain ⟨rfl, hu⟩ := h
      rw [Prog.onOk_ok, hu]
      cases hl : remote.lookup w.provider t with
      | some found => exact hfound t found _ ⟨ht, by rw [ha]; rfl, hl⟩ ⟨rfl, rfl⟩
      | none =>
        have hidle : ∀ u found, ¬ Found remote w operation u found := by
          intro u found h
          have hu : u = t := by simpa [h.1] using ht
          have hsome := h.2.2
          rw [hu, hl] at hsome
          cases hsome
        dsimp only
        split <;> exact hnone hidle _ _ ⟨rfl, rfl⟩

/-- A run that leaves the provider's answer as it found it. -/
theorem truthful_of_same (h : Same w w') :
    Truthful w operation (w', []) where
  settled he := by cases he
  failed he := by cases he
  committed ht := by
    obtain ⟨hold, _, hp, hs⟩ := ht
    rw [h.ledger, hp] at hs
    cases hs
  voided ht := by
    obtain ⟨hold, _, hp, hs⟩ := ht
    rw [h.ledger, hp] at hs
    cases hs

variable {s : World × List EventType} {status : TransactionStatus}

theorem resolves_true : resolves status = some true ↔ status = .SETTLED := by
  cases status <;> simp [resolves, isSettled, isFailed]

theorem resolves_false : resolves status = some false ↔ status = .FAILED ∨ status = .CANCELLED := by
  cases status <;> simp [resolves, isSettled, isFailed]

theorem outcomeEvent_settled :
    outcomeEvent status = .PIX_OUT_SETTLED ↔ resolves status = some true := by
  cases status <;> simp [outcomeEvent, resolves, isSettled, isFailed]

theorem outcomeEvent_failed :
    outcomeEvent status = .PIX_OUT_FAILED ↔ resolves status ≠ some true := by
  cases status <;> simp [outcomeEvent, resolves, isSettled, isFailed]

/-- The four parts of the truth as one: the stored status resolves what was said and done. -/
theorem truthful_iff (hstatus : statusIn w operation s.1 = some status) :
    Truthful w operation s ↔
      (EventType.PIX_OUT_SETTLED ∈ s.2 ∨ Turned w operation s.1 .POSTED → resolves status = some true) ∧
      (EventType.PIX_OUT_FAILED ∈ s.2 ∨ Turned w operation s.1 .VOIDED → resolves status = some false) := by
  rw [resolves_true, resolves_false]
  constructor
  · intro h
    have hs := h.settled
    have hf := h.failed
    have hc := h.committed
    have hv := h.voided
    simp only [hstatus, Option.some.injEq] at hs hf hc hv
    exact ⟨fun ho => ho.elim hs hc, fun ho => ho.elim hf hv⟩
  · rintro ⟨hs, hf⟩
    constructor <;> simp only [hstatus, Option.some.injEq] <;> intro h
    · exact hs (.inl h)
    · exact hf (.inl h)
    · exact hs (.inr h)
    · exact hf (.inr h)

/-- A hold turns where the engine takes up the resolution, and in no other way. -/
theorem turned_iff (hf : Found remote w operation t found)
    (ho : Outcome w operation.id t found remote.now s) (commit : Bool) :
    Turned w operation s.1 (resolvedStatus commit) ↔
      ResolvesHold w.ledger t.ledgerPendingTransactionId found.status operation.id ∧
        resolves found.status = some commit := by
  constructor
  · rintro ⟨hold, hh, hp, hs⟩
    rw [hf.1, Option.bind_some] at hh
    by_cases hres : ResolvesHold w.ledger t.ledgerPendingTransactionId found.status operation.id
    · obtain ⟨hold', commit', hh', hr, -, hs'⟩ := ho.resolved hres
      rw [hh', Option.some.injEq] at hh
      rw [← hh, hs', Option.some.injEq] at hs
      have hc : commit' = commit := by
        cases commit' <;> cases commit <;> simp [resolvedStatus] at hs ⊢
      exact ⟨hres, hc ▸ hr⟩
    · rw [ho.kept hres, hp] at hs
      cases commit <;> cases hs
  · rintro ⟨hres, hr⟩
    obtain ⟨hold, commit', hh, hr', hp, hs⟩ := ho.resolved hres
    rw [hr, Option.some.injEq] at hr'
    exact ⟨hold, by rw [hf.1]; exact hh, hp, hr' ▸ hs⟩

/-- The run is truthful exactly when the answer lines up with what is stored. -/
theorem outcome_truthful (hf : Found remote w operation t found)
    (ho : Outcome w operation.id t found remote.now s) :
    Truthful w operation s ↔ LinesUp w operation.id t found remote.now := by
  have hat : ∀ status, (s.1.transactions.get t.id).map (·.status) = some status →
      statusIn w operation s.1 = some status := by
    intro status h
    rw [statusIn, hf.1]
    exact h
  have hposted := turned_iff hf ho true
  have hvoided := turned_iff hf ho false
  simp only [resolvedStatus, if_true, Bool.false_eq_true, if_false] at hposted hvoided
  unfold LinesUp
  obtain ⟨happ, htape, hst⟩ | ⟨htape, hst, happ⟩ := ho.written
  · rw [truthful_iff (hat _ hst), htape, List.mem_singleton, List.mem_singleton, eq_comm,
      outcomeEvent_settled, @eq_comm _ EventType.PIX_OUT_FAILED, outcomeEvent_failed, hposted, hvoided]
    cases hr : resolves found.status with
    | none => simp [happ]
    | some commit => cases commit <;> simp [happ]
  · rw [truthful_iff (hat _ hst), htape, hposted, hvoided]
    simp only [List.not_mem_nil, false_or]
    cases hr : resolves found.status with
    | none =>
      have hn : ¬ Applies w t found remote.now := fun h => by simpa [hr] using (happ h).1
      simp [hn]
    | some commit =>
      have hn : ∀ h : ResolvesHold w.ledger t.ledgerPendingTransactionId found.status operation.id,
          ¬ Applies w t found remote.now := fun h ha => (happ ha).2 h
      cases commit <;> simp <;> exact forall_congr' fun h => (or_iff_right (hn h)).symm

/-- A choice whose answers are those of the provider and of the clock. -/
def choiceOf (remote : Remote) (c : Choice) : Choice :=
  { c with
    fault := none, instant := remote.now, found := remote.found, got := remote.got, lines := remote.lines }

theorem unopened {w : World} {id : String}
    (h : id ∉ w.ledger.accounts.table.values.map (·.id)) : (w.ledger.accounts.get id).isSome = false := by
  rw [Option.isSome_eq_false_iff, Option.isNone_iff_eq_none, Option.eq_none_iff_forall_ne_some]
  intro account hget
  exact h (List.mem_map.mpr ⟨account, Table.mem_values.mpr ⟨id, hget⟩, Rows.key_of_get hget⟩)

/-- The provider and the clock always give some answer. -/
theorem calm_total (remote : Remote) (w : World) (q : Call) :
    ∃ r w', calm remote.answers w q r w' := by
  have h : ∃ c, (respond (choiceOf remote c) q w).isSome := by
    unfold respond
    cases q with
    | newId kind =>
      obtain ⟨ulid, hu⟩ := exists_unminted kind w.minted
      exact ⟨{ ulid }, by simp [choiceOf, World.mint, hu, reply]⟩
    | ledger command =>
      obtain ⟨mint, hm⟩ := exists_fresh_mint w
      exact ⟨{ mint }, by simp [choiceOf, World.ledgerCommand, hm]⟩
    | ledgerOpenAccounts accountId =>
      obtain ⟨ulid, hu⟩ := exists_unminted .ledgerAccount (w.ledger.accounts.table.values.map (·.id))
      obtain ⟨secondUlid, hs⟩ := exists_unminted .ledgerAccount
        (idOf .ledgerAccount ulid :: w.ledger.accounts.table.values.map (·.id))
      obtain ⟨hne, hs⟩ := not_or.mp (mt List.mem_cons.mpr hs)
      exact ⟨{ ulid, secondUlid }, by
        simp [choiceOf, World.openLedgerAccounts, unopened hu, unopened hs, Ne.symm hne, reply]⟩
    | idempotencyClaim claim =>
      obtain ⟨ulid, hu⟩ := exists_unminted .idempotency w.minted
      obtain ⟨secondUlid, hs⟩ := exists_unminted .operation w.minted
      refine ⟨{ ulid, secondUlid }, ?_⟩
      simp only [choiceOf, World.claim, hu, hs, or_self, if_false, reply]
      split <;> rfl
    | _ =>
      refine ⟨{}, ?_⟩
      generalize choiceOf remote {} = c
      simp only [reply, refuse, World.createAccount, World.updateAccount, World.changeAccount,
        World.createTransaction, World.changeTransaction, World.createOperation,
        World.updateOperation, World.requireCapability, World.send, World.refund, World.stealLease,
        World.updateRecord, World.complete, World.markProcessing, World.updateEvent, World.upsertBreak]
      repeat' split
      all_goals rfl
  obtain ⟨c, hc⟩ := h
  obtain ⟨⟨r, w'⟩, hr⟩ := Option.isSome_iff_exists.mp hc
  exact ⟨r, w', choiceOf remote c, rfl, ⟨rfl, rfl, rfl, rfl⟩, hr⟩

variable (remote w operation)

/-- Over an operation with an unknown outcome, every run of the reconciler tells
the truth exactly when the answer, if there is one, lines up with what is stored. -/
theorem reconciler_truthful_iff (hop : w.operations.get operation.id = some operation)
    (hunknown : operation.status = .UNKNOWN) :
    (resolve operation.id).wp (recorded remote) (fun _ s => Truthful w operation s) (w, []) ↔
      ∀ t found, Found remote w operation t found → LinesUp w operation.id t found remote.now := by
  have hstuck : operation.status.isStuck = true := by rw [hunknown]; rfl
  have houtcome : ∀ {t found w'}, Found remote w operation t found → Same w w' →
      (applyOutcome operation t found).wp (recorded remote)
        (fun _ => Outcome w operation.id t found remote.now) (w', []) := by
    intro t found w' hf hs
    have hget : w'.transactions.get t.id = some t := by
      rw [hs.transactions]
      exact (Rows.search_some hf.1).2
    exact Prog.wp_mono _ (wp_applyOutcome hget) fun _ _ ho => ho.same hs
  constructor
  · intro h t found hf
    by_contra hn
    have hfalse : (resolve operation.id).wp (recorded remote)
        (fun _ s => ¬ Truthful w operation s) (w, []) := by
      refine wp_resolve hop hstuck (fun hnone => absurd hf (hnone t found)) fun u v w' hf' hs => ?_
      obtain ⟨rfl, rfl⟩ := hf.unique hf'
      refine Prog.wp_mono _ (houtcome hf hs) fun r s ho htrue => ?_
      exact hn ((outcome_truthful hf ho).mp htrue)
    obtain ⟨r, s, hyes, hno⟩ := Prog.wp_may _ h
      (Prog.may_of_wp (Prog.taped_total (calm_total remote)) hfalse)
    exact hno hyes
  · intro h
    refine wp_resolve hop hstuck (fun _ r w' hs => truthful_of_same hs) fun t found w' hf hs => ?_
    refine Prog.wp_mono _ (houtcome hf hs) fun r s ho => ?_
    exact (outcome_truthful hf ho).mpr (h t found hf)

def processingAnswer : PixTransaction := ⟨"ptx_1", some "E1", .PROCESSING, none, none⟩

def processingRemote : Remote := ⟨2000, .ok (some processingAnswer), .error (.failure ""), .ok []⟩

def settledRemote : Remote :=
  ⟨2000, .ok (some { processingAnswer with status := .SETTLED }), .error (.failure ""), .ok []⟩

theorem reconciler_truthful_iff_settled :
    (resolve unknownTransfer.id).wp (recorded settledRemote)
        (fun _ s => Truthful unknownWorld unknownTransfer s) (unknownWorld, []) ↔
      ∀ t found, Found settledRemote unknownWorld unknownTransfer t found →
        LinesUp unknownWorld unknownTransfer.id t found settledRemote.now :=
  reconciler_truthful_iff settledRemote unknownWorld unknownTransfer rfl rfl

def processingRun : Option (Except Thrown ReconcileOutcome × World × List EventType) :=
  (resolve unknownTransfer.id).play
    (Prog.tapedAnswer (fun c => respond (choiceOf processingRemote c)) emits)
    (List.replicate 10 {}) (unknownWorld, [])

/-- The provider is still processing the payment, and the outbox says that it failed. -/
theorem processing_reported_as_failed :
    ¬ ∀ (remote : Remote) (w : World) (operation : OperationRecord),
      w.operations.get operation.id = some operation → operation.status = .UNKNOWN →
      (resolve operation.id).wp (recorded remote) (fun _ s => Truthful w operation s) (w, []) := by
  intro h
  have hshown : processingRun.map (fun x => (x.2.2, statusIn unknownWorld unknownTransfer x.2.1)) =
      some ([.PIX_OUT_FAILED], some .PROCESSING) := by decide
  obtain ⟨⟨r, s⟩, hs, hseen⟩ := Option.map_eq_some_iff.mp hshown
  obtain ⟨htape, hstatus⟩ := Prod.mk.inj hseen
  have hrun : (resolve unknownTransfer.id).Runs (recorded processingRemote) (unknownWorld, []) r s := by
    refine Prog.runs_of_play (Prog.taped_of_answer fun c q w r w' ha => ?_) hs
    exact ⟨choiceOf processingRemote c, rfl, ⟨rfl, rfl, rfl, rfl⟩, ha⟩
  have htrue := hrun.of_wp (h processingRemote unknownWorld unknownTransfer rfl rfl)
  have hfailed := htrue.failed (by rw [htape]; exact List.mem_singleton_self _)
  simp [hstatus] at hfailed

end BaasConnector.Pix.ResolutionEvents
