import BaasConnector.Connector.Database
import BaasConnector.Ledger.Holds
import BaasConnector.Lib.Footprint
import Mathlib.Data.Set.Finite.Basic

namespace BaasConnector.Connector.Replies

open BaasConnector.Lib.Effects BaasConnector.Lib.Keyed BaasConnector.Taxonomy.Errors
open BaasConnector.Connector.Records BaasConnector.Connector.Calls BaasConnector.Connector.Database
open BaasConnector.Ledger.Shadow BaasConnector.Ledger.Types BaasConnector.Ledger.Engine

instance infiniteString : Infinite String := Infinite.of_injective String.ofList fun _ _ h => by
  simpa using congrArg String.toList h

theorem idOf_injective (kind : IdKind) : Function.Injective (idOf kind) := by
  intro a b h
  simpa [idOf] using h

theorem exists_unminted (kind : IdKind) (minted : List String) : ∃ ulid, idOf kind ulid ∉ minted := by
  obtain ⟨id, ⟨ulid, rfl⟩, hid⟩ := (Set.infinite_range_of_injective
    (idOf_injective kind)).exists_notMem_finset minted.toFinset
  exact ⟨ulid, by simpa using hid⟩

/-- Every call is answered somehow. -/
theorem env_total (w : World) (q : Call) : ∃ r w', env w q r w' := by
  by_cases hq : Call.fallible q = true
  · exact ⟨_, w, env_iff.mpr (.inl ⟨hq, ⟨"", rfl⟩, rfl⟩)⟩
  · cases q with
    | newId kind =>
      obtain ⟨ulid, hu⟩ := exists_unminted kind w.minted
      exact ⟨.ok (idOf kind ulid), { w with minted := idOf kind ulid :: w.minted }, { ulid },
        by unfold answer respond; simp [World.mint, hu, reply]⟩
    | now => exact ⟨_, _, {}, rfl⟩
    | effectiveDate instant => exact ⟨_, _, {}, rfl⟩
    | idempotencyRelease id => exact ⟨_, _, {}, rfl⟩
    | _ => simp [Call.fallible] at hq

/-- A call leaves the world as it is, but for the part that it is there to write. -/
def Call.Writes (w w' : World) : Call → Prop
  | .newId _ => w' = { w with minted := w'.minted }
  | .idempotencyClaim _ => w' = { w with minted := w'.minted, idempotency := w'.idempotency }
  | .idempotencyStealLease .. | .idempotencyRenewLease .. | .idempotencyComplete _
  | .idempotencyRelease _ => w' = { w with idempotency := w'.idempotency }
  | .accountCreate _ | .accountAttachProviderAccount .. | .accountAttachLedgerAccounts ..
  | .accountApplyStatusChange _ => w' = { w with accounts := w'.accounts }
  | .transactionCreate _ | .transactionApplyStatusChange _ =>
    w' = { w with transactions := w'.transactions }
  | .operationCreate _ | .operationUpdate _ => w' = { w with operations := w'.operations }
  | .ledger _ | .ledgerOpenAccounts _ => w' = { w with ledger := w'.ledger }
  | .providerSend _ => w' = { w with payments := w'.payments }
  | .eventMarkProcessing _ | .eventMarkProcessed _ | .eventMarkDiscarded .. | .eventMarkFailed .. =>
    w' = { w with events := w'.events }
  | .breakUpsert _ | .breakResolveManually .. => w' = { w with breaks := w'.breaks }
  | _ => w' = w

section Writes

variable {α : Type} {w w' v : World} {a : Except Thrown α}

theorem left_by {b : Except Thrown α} (h : some (b, v) = some (a, w')) : w' = v :=
  (Prod.mk.inj (Option.some.inj h)).2.symm

theorem updateAccount_writes {id : String} {f : AccountRecord → AccountRecord}
    {a : Except Thrown AccountRecord} (h : w.updateAccount id f = some (a, w')) :
    w' = { w with accounts := w'.accounts } := by
  unfold World.updateAccount at h
  split at h
  · obtain rfl := left_by h
    rfl
  · obtain rfl := left_by h
    rfl

theorem updateRecord_writes {id : String} {f : IdempotencyRecord → IdempotencyRecord}
    {a : Except Thrown Unit} (h : w.updateRecord id f = some (a, w')) :
    w' = { w with idempotency := w'.idempotency } := by
  unfold World.updateRecord at h
  split at h
  · obtain rfl := left_by h
    rfl
  · obtain rfl := left_by h
    rfl

theorem updateEvent_writes {id : String} {f : InboundEventRecord → InboundEventRecord}
    {a : Except Thrown Unit} (h : w.updateEvent id f = some (a, w')) :
    w' = { w with events := w'.events } := by
  unfold World.updateEvent at h
  split at h
  · obtain rfl := left_by h
    rfl
  · obtain rfl := left_by h
    rfl

theorem pay_writes (w : World) (operationId : String) :
    w.pay operationId = { w with payments := (w.pay operationId).payments } := by
  unfold World.pay
  split
  · rfl
  · rfl

end Writes

theorem respond_writes {c : Choice} {q : Call} {w w' : World} {r : Except Thrown (Answer q)}
    (h : respond c q w = some (r, w')) : Call.Writes w w' q := by
  cases q with
  | newId kind =>
    unfold respond at h
    simp only [World.mint] at h
    split at h
    · cases h
    · obtain rfl := left_by h
      rfl
  | idempotencyClaim claim =>
    unfold respond at h
    simp only [World.claim] at h
    split at h
    · obtain rfl := left_by h
      rfl
    · split at h
      · cases h
      · obtain rfl := left_by h
        rfl
  | idempotencyStealLease id leaseSeconds =>
    unfold respond at h
    simp only [World.stealLease] at h
    split at h
    · obtain rfl := left_by h
      rfl
    · split at h
      · obtain rfl := left_by h
        rfl
      · obtain rfl := left_by h
        rfl
  | idempotencyRenewLease | idempotencyComplete => exact updateRecord_writes h
  | idempotencyRelease id =>
    obtain rfl := left_by h
    cases c.granted <;> rfl
  | accountCreate record =>
    unfold respond at h
    simp only [World.createAccount] at h
    split at h
    · obtain rfl := left_by h
      rfl
    · obtain rfl := left_by h
      rfl
  | accountAttachProviderAccount | accountAttachLedgerAccounts => exact updateAccount_writes h
  | accountApplyStatusChange change =>
    unfold respond at h
    simp only [World.changeAccount] at h
    split at h
    · obtain rfl := left_by h
      rfl
    · split at h
      · obtain rfl := left_by h
        rfl
      · obtain rfl := left_by h
        rfl
  | transactionCreate record =>
    unfold respond at h
    simp only [World.createTransaction] at h
    split at h
    · obtain rfl := left_by h
      rfl
    · obtain rfl := left_by h
      rfl
  | transactionApplyStatusChange change =>
    unfold respond at h
    simp only [World.changeTransaction] at h
    split at h
    · obtain rfl := left_by h
      rfl
    · split at h
      · obtain rfl := left_by h
        rfl
      · split at h
        · obtain rfl := left_by h
          rfl
        · obtain rfl := left_by h
          rfl
  | operationCreate record =>
    unfold respond at h
    simp only [World.createOperation] at h
    split at h
    · obtain rfl := left_by h
      rfl
    · obtain rfl := left_by h
      rfl
  | operationUpdate update =>
    unfold respond at h
    simp only [World.updateOperation] at h
    split at h
    · obtain rfl := left_by h
      rfl
    · obtain rfl := left_by h
      rfl
  | ledger command =>
    unfold respond at h
    simp only [World.ledgerCommand] at h
    split at h
    · cases h
    · obtain rfl := left_by h
      rfl
  | ledgerOpenAccounts accountId =>
    unfold respond at h
    simp only [World.openLedgerAccounts] at h
    split at h
    · cases h
    · obtain rfl := left_by h
      rfl
  | providerRequire connectionId capability =>
    unfold respond at h
    cases capability <;> simp only [World.requireCapability] at h <;> split at h <;> exact left_by h
  | providerSend request =>
    unfold respond at h
    simp only [World.send] at h
    split at h
    · obtain rfl := left_by h
      exact pay_writes w _
    · obtain rfl := left_by h
      rfl
    · obtain rfl := left_by h
      rfl
    · obtain rfl := left_by h
      exact pay_writes w _
    · obtain rfl := left_by h
      rfl
  | providerRefund request =>
    unfold respond at h
    simp only [World.refund] at h
    split at h
    · exact left_by h
    · exact left_by h
    · exact left_by h
    · exact left_by h
  | eventMarkProcessing id =>
    unfold respond at h
    simp only [World.markProcessing] at h
    split at h
    · obtain rfl := left_by h
      rfl
    · split at h
      · obtain rfl := left_by h
        rfl
      · obtain rfl := left_by h
        rfl
  | eventMarkProcessed | eventMarkDiscarded | eventMarkFailed => exact updateEvent_writes h
  | breakUpsert row =>
    unfold respond at h
    simp only [World.upsertBreak] at h
    split at h
    · obtain rfl := left_by h
      rfl
    · obtain rfl := left_by h
      rfl
  | breakResolveManually id status =>
    unfold respond at h
    dsimp only at h
    split at h
    · obtain rfl := left_by h
      rfl
    · obtain rfl := left_by h
      rfl
  | _ => exact left_by h

/-- No call takes an id back that has been minted. -/
theorem env_minted {q : Call} {w w' : World} {r : Except Thrown (Answer q)} (h : env w q r w')
    {id : String} (hid : id ∈ w.minted) : id ∈ w'.minted := by
  obtain ⟨_, _, rfl⟩ | ⟨c, _, hc⟩ := env_iff.mp h
  · exact hid
  have hwrites := respond_writes hc
  cases q with
  | newId kind =>
    unfold respond at hc
    simp only [World.mint] at hc
    split at hc
    · cases hc
    · obtain rfl := left_by hc
      exact List.mem_cons_of_mem _ hid
  | idempotencyClaim claim =>
    unfold respond at hc
    simp only [World.claim] at hc
    split at hc
    · obtain rfl := left_by hc
      exact hid
    · split at hc
      · cases hc
      · obtain rfl := left_by hc
        exact List.mem_cons_of_mem _ (List.mem_cons_of_mem _ hid)
  | _ =>
    rw [show w'.minted = w.minted from (congrArg World.minted hwrites).trans rfl]
    exact hid

/-- A new id is one that has not been minted before. -/
theorem env_newId {kind : IdKind} {w w' : World} {r : Except Thrown String}
    (h : env w (.newId kind) r w') :
    ∃ id, r = .ok id ∧ id ∉ w.minted ∧ w' = { w with minted := id :: w.minted } := by
  obtain ⟨hf, _⟩ | ⟨c, _, hc⟩ := env_iff.mp h
  · cases hf
  · unfold respond at hc
    simp only [World.mint, reply] at hc
    split at hc
    · cases hc
    · next hn =>
      simp only [Option.some.injEq, Prod.mk.injEq] at hc
      exact ⟨_, hc.1.symm, hn, hc.2.symm⟩

/-- The calls that may change the ledger. -/
def Call.touchesLedger : Call → Bool
  | .ledger _ | .ledgerOpenAccounts _ => true
  | _ => false

theorem respond_ledger {c : Choice} {q : Call} {w w' : World} {r : Except Thrown (Answer q)}
    (hq : Call.touchesLedger q = false) (h : respond c q w = some (r, w')) :
    w'.ledger = w.ledger := by
  have hwrites := respond_writes h
  cases q with
  | ledger | ledgerOpenAccounts => cases hq
  | _ => exact (congrArg World.ledger hwrites).trans rfl

theorem env_ledger {q : Call} {w w' : World} {r : Except Thrown (Answer q)}
    (hq : Call.touchesLedger q = false) (h : env w q r w') : w'.ledger = w.ledger := by
  obtain ⟨_, _, rfl⟩ | ⟨c, _, hc⟩ := env_iff.mp h
  · rfl
  · exact respond_ledger hq hc

/-- A program without ledger calls leaves the ledger as it was. -/
theorem wp_ledger_unchanged {α : Type} {p : Flow α}
    (hp : p.Within fun q => Call.touchesLedger q = false) (w : World) :
    p.wp env (fun _ w' => w'.ledger = w.ledger) w :=
  Prog.wp_mono env (Prog.wp_of_meets (R := fun v v' : World => v'.ledger = v.ledger) (fun _ => rfl)
    (fun h h' => h'.trans h) (fun hq he => ⟨trivial, env_ledger hq he⟩) hp w) fun _ _ h => h.2

/-- The calls that may write a transaction. -/
def Call.touchesTransactions : Call → Bool
  | .transactionCreate _ | .transactionApplyStatusChange _ => true
  | _ => false

theorem respond_transactions {c : Choice} {q : Call} {w w' : World} {r : Except Thrown (Answer q)}
    (hq : Call.touchesTransactions q = false) (h : respond c q w = some (r, w')) :
    w'.transactions = w.transactions := by
  have hwrites := respond_writes h
  cases q with
  | transactionCreate | transactionApplyStatusChange => cases hq
  | _ => exact (congrArg World.transactions hwrites).trans rfl

/-- The calls that may write an inbound event. -/
def Call.touchesEvents : Call → Bool
  | .eventMarkProcessing _ | .eventMarkProcessed _ | .eventMarkDiscarded .. | .eventMarkFailed .. => true
  | _ => false

theorem respond_events {c : Choice} {q : Call} {w w' : World} {r : Except Thrown (Answer q)}
    (hq : Call.touchesEvents q = false) (h : respond c q w = some (r, w')) :
    w'.events = w.events := by
  have hwrites := respond_writes h
  cases q with
  | eventMarkProcessing | eventMarkProcessed | eventMarkDiscarded | eventMarkFailed => cases hq
  | _ => exact (congrArg World.events hwrites).trans rfl

theorem env_events {q : Call} {w w' : World} {r : Except Thrown (Answer q)}
    (hq : Call.touchesEvents q = false) (h : env w q r w') : w'.events = w.events := by
  obtain ⟨_, _, rfl⟩ | ⟨c, _, hc⟩ := env_iff.mp h
  · rfl
  · exact respond_events hq hc

/-- The calls that may write an operation or an account. -/
def Call.touchesParties : Call → Bool
  | .operationCreate _ | .operationUpdate _ | .accountCreate _ | .accountAttachProviderAccount ..
  | .accountAttachLedgerAccounts .. | .accountApplyStatusChange _ => true
  | _ => false

theorem respond_parties {c : Choice} {q : Call} {w w' : World} {r : Except Thrown (Answer q)}
    (hq : Call.touchesParties q = false) (h : respond c q w = some (r, w')) :
    w'.operations = w.operations ∧ w'.accounts = w.accounts := by
  have hwrites := respond_writes h
  cases q with
  | operationCreate | operationUpdate | accountCreate | accountAttachProviderAccount
  | accountAttachLedgerAccounts | accountApplyStatusChange => cases hq
  | _ =>
    exact ⟨(congrArg World.operations hwrites).trans rfl, (congrArg World.accounts hwrites).trans rfl⟩

theorem env_parties {q : Call} {w w' : World} {r : Except Thrown (Answer q)}
    (hq : Call.touchesParties q = false) (h : env w q r w') :
    w'.operations = w.operations ∧ w'.accounts = w.accounts := by
  obtain ⟨_, _, rfl⟩ | ⟨c, _, hc⟩ := env_iff.mp h
  · exact ⟨rfl, rfl⟩
  · exact respond_parties hq hc

theorem createTransaction_cases {t : TransactionRecord} {w w' : World}
    {r : Except Thrown TransactionRecord} (h : w.createTransaction t = some (r, w')) :
    (r = .error uniqueViolation ∧ w' = w) ∨
      (w.transactions.get t.id = none ∧ r = .ok (storedTransaction t) ∧
        w' = { w with transactions := w.transactions.put (storedTransaction t) }) := by
  unfold World.createTransaction at h
  split at h
  · simp only [refuse, Option.some.injEq, Prod.mk.injEq] at h
    exact .inl ⟨h.1.symm, h.2.symm⟩
  · next hconf =>
    simp only [World.transactionConflict, Bool.or_eq_true, not_or, Bool.not_eq_true] at hconf
    simp only [reply, Option.some.injEq, Prod.mk.injEq] at h
    exact .inr ⟨by simpa using hconf.1, h.1.symm, h.2.symm⟩

theorem changeTransaction_cases {c : TransactionStatusChange} {w w' : World}
    {r : Except Thrown (StatusChangeResult Taxonomy.Status.TransactionStatus TransactionRecord)}
    (h : w.changeTransaction c = some (r, w')) :
    ((∀ record, r ≠ .ok (.applied record)) ∧ w' = w) ∨
      ∃ t, w.transactions.get c.transactionId = some t ∧ t.guard c.toStatus c.occurredAt = none ∧
        r = .ok (.applied (t.change c)) ∧
        w' = { w with transactions := w.transactions.put (t.change c) } := by
  unfold World.changeTransaction at h
  cases ht : w.transactions.get c.transactionId with
  | none =>
    simp only [ht, reply, Option.some.injEq, Prod.mk.injEq] at h
    exact .inl ⟨by simp [← h.1], h.2.symm⟩
  | some t =>
    cases hg : t.guard c.toStatus c.occurredAt with
    | some reason =>
      simp only [ht, hg, reply, Option.some.injEq, Prod.mk.injEq] at h
      exact .inl ⟨by simp [← h.1], h.2.symm⟩
    | none =>
      simp only [ht, hg] at h
      split at h
      · simp only [refuse, Option.some.injEq, Prod.mk.injEq] at h
        exact .inl ⟨by simp [← h.1], h.2.symm⟩
      · simp only [reply, Option.some.injEq, Prod.mk.injEq] at h
        exact .inr ⟨t, rfl, hg, h.1.symm, h.2.symm⟩

/-- What one call makes of the stored transaction of an id. -/
theorem env_transactions {q : Call} {w w' : World} {r : Except Thrown (Answer q)} (h : env w q r w')
    (id : String) :
    w'.transactions.get id = w.transactions.get id ∨
      (∃ t, q = .transactionCreate t ∧ t.id = id ∧ w.transactions.get id = none ∧
        w'.transactions.get id = some (storedTransaction t)) ∨
      ∃ c t, q = .transactionApplyStatusChange c ∧ c.transactionId = id ∧
        w.transactions.get id = some t ∧ t.guard c.toStatus c.occurredAt = none ∧
        w'.transactions.get id = some (t.change c) := by
  obtain ⟨_, _, rfl⟩ | ⟨choice, _, hc⟩ := env_iff.mp h
  · exact .inl rfl
  by_cases hq : Call.touchesTransactions q = false
  · rw [respond_transactions hq hc]
    exact .inl rfl
  cases q with
  | transactionCreate t =>
    obtain ⟨_, rfl⟩ | ⟨hnew, _, rfl⟩ := createTransaction_cases hc
    · exact .inl rfl
    · have hid : (storedTransaction t).id = t.id := rfl
      by_cases hk : id = t.id
      · exact .inr (.inl ⟨t, rfl, hk.symm, hk ▸ hnew, by rw [Rows.get_put, hid, if_pos hk]⟩)
      · exact .inl (by rw [Rows.get_put, hid, if_neg hk])
  | transactionApplyStatusChange c =>
    obtain ⟨_, rfl⟩ | ⟨t, ht, hg, _, rfl⟩ := changeTransaction_cases hc
    · exact .inl rfl
    · have hkey : t.id = c.transactionId := Rows.key_of_get ht
      have hid : (t.change c).id = c.transactionId := hkey
      by_cases hk : id = c.transactionId
      · exact .inr (.inr ⟨c, t, rfl, hk.symm, hk ▸ ht, hg, by rw [Rows.get_put, hid, if_pos hk]⟩)
      · exact .inl (by rw [Rows.get_put, hid, if_neg hk])
  | _ => simp [Call.touchesTransactions] at hq

/-- What one call makes of the stored operation of an id. -/
theorem env_operations {q : Call} {w w' : World} {r : Except Thrown (Answer q)} (h : env w q r w')
    (id : String) :
    w'.operations.get id = w.operations.get id ∨
      (∃ o, q = .operationCreate o ∧ o.id = id ∧ w.operations.get id = none ∧
        w'.operations.get id = some o) ∨
      ∃ u o, q = .operationUpdate u ∧ u.id = id ∧ w.operations.get id = some o ∧
        w'.operations.get id = some (o.update u) := by
  obtain ⟨_, _, rfl⟩ | ⟨choice, _, hc⟩ := env_iff.mp h
  · exact .inl rfl
  by_cases hq : Call.touchesParties q = false
  · rw [(respond_parties hq hc).1]
    exact .inl rfl
  cases q with
  | operationCreate o =>
    unfold respond at hc
    simp only [World.createOperation] at hc
    split at hc
    · simp only [refuse, Option.some.injEq, Prod.mk.injEq] at hc
      exact .inl (by rw [hc.2])
    · next hn =>
      simp only [reply, Option.some.injEq, Prod.mk.injEq] at hc
      rw [← hc.2]
      by_cases hk : id = o.id
      · refine .inr (.inl ⟨o, rfl, hk.symm, ?_, by rw [Rows.get_put, if_pos hk]⟩)
        cases hg : w.operations.get id with
        | none => rfl
        | some v => simp [← hk, hg] at hn
      · exact .inl (by rw [Rows.get_put, if_neg hk])
  | operationUpdate u =>
    unfold respond at hc
    simp only [World.updateOperation] at hc
    cases ho : w.operations.get u.id with
    | none =>
      simp only [ho, reply, Option.some.injEq, Prod.mk.injEq] at hc
      exact .inl (by rw [hc.2])
    | some o =>
      simp only [ho, reply, Option.some.injEq, Prod.mk.injEq] at hc
      have hkey : o.id = u.id := Rows.key_of_get ho
      have hid : (o.update u).id = u.id := hkey
      rw [← hc.2]
      by_cases hk : id = u.id
      · exact .inr (.inr ⟨u, o, rfl, hk.symm, hk ▸ ho, by rw [Rows.get_put, hid, if_pos hk]⟩)
      · exact .inl (by rw [Rows.get_put, hid, if_neg hk])
  | accountCreate | accountAttachProviderAccount | accountAttachLedgerAccounts
  | accountApplyStatusChange =>
    have hwrites := respond_writes hc
    exact .inl (by rw [(congrArg World.operations hwrites).trans rfl])
  | _ => simp [Call.touchesParties] at hq

/-- A call that reads gives what is stored, or fails. -/
theorem env_read {q : Call} {a : Answer q} {w w' : World} {r : Except Thrown (Answer q)}
    (hq : ∀ c, respond c q w = some (.ok a, w)) (h : env w q r w') :
    w' = w ∧ (r = .ok a ∨ ∃ message, r = .error (.failure message)) := by
  obtain ⟨_, ⟨message, hr⟩, hw⟩ | ⟨c, _, hc⟩ := env_iff.mp h
  · exact ⟨hw, .inr ⟨message, hr⟩⟩
  · rw [hq, Option.some.injEq, Prod.mk.injEq] at hc
    exact ⟨hc.2.symm, .inl hc.1.symm⟩

/-- The rule of a read: the program goes on with what is stored, or fails. -/
theorem wp_read {α : Type} {q : Call} {a : Answer q} {w : World} {f : Answer q → Flow α}
    {post : Except Thrown α → World → Prop} (hq : ∀ c, respond c q w = some (.ok a, w))
    (hok : (f a).wp env post w) (herror : ∀ message, post (.error (.failure message)) w) :
    ((ask q).bind f).wp env post w := by
  rw [Prog.wp_bind, Prog.wp_perform]
  intro r w' h
  obtain ⟨rfl, rfl | ⟨message, rfl⟩⟩ := env_read hq h
  · exact hok
  · exact herror message

theorem env_of_read {q : Call} {a : Answer q} {w : World}
    (hq : ∀ c, respond c q w = some (.ok a, w)) : env w q (.ok a) w :=
  env_iff.mpr (.inr ⟨{}, rfl, hq {}⟩)

theorem env_ledger_command {command : LedgerCommand} {w w' : World}
    {r : Except Thrown PostTransactionResult} :
    env w (.ledger command) r w' ↔
      ((∃ message, r = .error (.failure message)) ∧ w' = w) ∨
        ∃ mint, w.ledger.transactions.get mint.transactionId = none ∧
          r = (command.perform mint w.ledger).1 ∧
          w' = { w with ledger := (command.perform mint w.ledger).2 } := by
  rw [env_iff]
  refine or_congr (by simp [Call.fallible]) ⟨?_, ?_⟩
  · rintro ⟨c, -, hc⟩
    unfold respond at hc
    simp only [World.ledgerCommand] at hc
    cases hm : w.ledger.transactions.get c.mint.transactionId with
    | some t => simp [hm] at hc
    | none =>
      simp only [hm, Option.isSome_none, Bool.false_eq_true, if_false, Option.some.injEq,
        Prod.mk.injEq] at hc
      exact ⟨c.mint, hm, hc.1.symm, hc.2.symm⟩
  · rintro ⟨mint, hm, hr, hw⟩
    exact ⟨{ mint }, rfl, by unfold respond; simp [World.ledgerCommand, hm, hr, hw]⟩

theorem exists_fresh_mint (w : World) :
    ∃ mint : Mint, w.ledger.transactions.get mint.transactionId = none := by
  obtain ⟨id, hid⟩ := w.ledger.transactions.table.exists_fresh
  exact ⟨⟨id, fun _ => "", 0⟩, hid⟩

end BaasConnector.Connector.Replies

namespace BaasConnector.Connector.Calm

open BaasConnector.Lib.Effects BaasConnector.Taxonomy.Errors BaasConnector.Connector.Calls
open BaasConnector.Connector.Database BaasConnector.Connector.Replies

/-- The replies that come without a failure of our own infrastructure, under
choices of one kind. -/
def calm (kind : Choice → Prop) : Prog.Env Call Answer Thrown World := fun w q r w' =>
  ∃ c, c.fault = none ∧ kind c ∧ respond c q w = some (r, w')

variable {kind : Choice → Prop} {α : Type} {q : Call} {w w' : World} {r : Except Thrown (Answer q)}

theorem env_of_calm (h : calm kind w q r w') : env w q r w' := by
  obtain ⟨c, hf, _, hc⟩ := h
  exact env_iff.mpr (.inr ⟨c, hf, hc⟩)

/-- A call whose reply the stored state determines. -/
theorem wp_fixed {f : Answer q → Flow α} {post : Except Thrown α → World → Prop}
    (hq : ∀ c, kind c → respond c q w = some (r, w'))
    (h : Prog.onOk f (fun p => p.wp (calm kind) post) post r w') :
    ((ask q).bind f).wp (calm kind) post w := by
  rw [Prog.wp_bind, Prog.wp_perform]
  rintro r' v ⟨c, _, hk, hc⟩
  rw [hq c hk, Option.some.injEq, Prod.mk.injEq] at hc
  rw [← hc.1, ← hc.2]
  exact h

theorem wp_fixed_attempt {f : Except Thrown (Answer q) → Flow α}
    {post : Except Thrown α → World → Prop} (hq : ∀ c, kind c → respond c q w = some (r, w'))
    (h : (f r).wp (calm kind) post w') : ((ask q).attempt.bind f).wp (calm kind) post w := by
  rw [Prog.wp_bind, Prog.wp_attempt, Prog.wp_perform]
  rintro r' v ⟨c, _, hk, hc⟩
  rw [hq c hk, Option.some.injEq, Prod.mk.injEq] at hc
  rw [← hc.1, ← hc.2]
  exact h

theorem runs_calm {p : Flow α} {r : Except Thrown α} (fix : Choice → Choice)
    (hfix : ∀ c, (fix c).fault = none ∧ kind (fix c)) (script : List Choice)
    (h : p.play (fun c => respond (fix c)) script w = some (r, w')) : p.Runs (calm kind) w r w' := by
  have henv : ∀ (c : Choice) (q : Call) (w : World) (r : Except Thrown (Answer q)) (w' : World),
      respond (fix c) q w = some (r, w') → calm kind w q r w' :=
    fun c _ _ _ _ h => ⟨fix c, (hfix c).1, (hfix c).2, h⟩
  exact Prog.runs_of_play henv h

theorem calm_ledger {command : Ledger.Shadow.LedgerCommand}
    {r : Except Thrown Ledger.Types.PostTransactionResult} (h : calm kind w (.ledger command) r w') :
    ∃ mint, w.ledger.transactions.get mint.transactionId = none ∧
      r = (command.perform mint w.ledger).1 ∧
      w' = { w with ledger := (command.perform mint w.ledger).2 } := by
  obtain ⟨c, _, _, hc⟩ := h
  unfold respond at hc
  simp only [World.ledgerCommand] at hc
  cases hm : w.ledger.transactions.get c.mint.transactionId with
  | some t => simp [hm] at hc
  | none =>
    simp only [hm, Option.isSome_none, Bool.false_eq_true, if_false, Option.some.injEq,
      Prod.mk.injEq] at hc
    exact ⟨c.mint, hm, hc.1.symm, hc.2.symm⟩

end BaasConnector.Connector.Calm
