import BaasConnector.Webhooks.Discard

namespace BaasConnector.Pix.Recovery

open BaasConnector.Lib.Effects BaasConnector.Lib.Keyed BaasConnector.Taxonomy.Status
open BaasConnector.Taxonomy.Errors BaasConnector.Ledger.MemoryStore
open BaasConnector.Connector.Records BaasConnector.Connector.Calls BaasConnector.Connector.Database
open BaasConnector.Connector.Replies BaasConnector.Pix.HoldResolution BaasConnector.Pix.Transfers
open BaasConnector.Webhooks.Apply BaasConnector.Webhooks.Discard

/-- The hold that an operation placed, as the ledger finds it by its key. -/
def holdOf (s : LedgerStore) (operationId : String) : Option String :=
  (s.findByIdempotencyKey ("pix-out:" ++ operationId)).map (·.transaction.id)

/-- An adapter that looks payments up by our key, and a lookup that finds one. -/
def Finds (remote : PixTransaction) : (q : Call) → Except Thrown (Answer q) → Prop
  | .providerRequire .., .ok bound => bound.findByIdempotencyKey = true
  | .providerFindByIdempotencyKey .., r => r = .ok (some remote)
  | _, _ => True

/-- The replies of a run that finds the payment at the provider. -/
def finding (remote : PixTransaction) : Prog.Env Call Answer Thrown World :=
  fun w q r w' => env w q r w' ∧ Finds remote q r

/-- The calls that create no transaction with a hold and change none. -/
def Unlinked : Call → Prop
  | .transactionCreate record => record.ledgerPendingTransactionId = none
  | .transactionApplyStatusChange _ => False
  | _ => True

variable {remote : PixTransaction} {w w' : World} {q : Call}

theorem finding_keeps {r : Except Thrown (Answer q)} (hq : Unlinked q) (h : finding remote w q r w') :
    ∀ id, w'.transactions.get id = w.transactions.get id ∨
      ∃ t, w'.transactions.get id = some t ∧ t.ledgerPendingTransactionId = none := by
  intro id
  obtain hsame | ⟨t, rfl, _, _, hnew⟩ | ⟨c, _, rfl, _⟩ := env_transactions h.1 id
  · exact .inl hsame
  · exact .inr ⟨_, hnew, hq⟩
  · exact hq.elim

theorem recordSent_unlinked (t : Transfer) (sent : PixTransaction) :
    (recordSent t sent none).Meets (Finds remote) Unlinked fun _ => True := by
  unfold recordSent
  refine Prog.meets_perform_bind.mpr ⟨trivial, fun now _ => ?_, fun _ _ => trivial⟩
  refine Prog.meets_perform_bind.mpr ⟨trivial, fun id _ => ?_, fun _ _ => trivial⟩
  refine Prog.meets_perform_bind.mpr ⟨rfl, fun stored _ => ?_, fun _ _ => trivial⟩
  exact Prog.meets_perform_bind.mpr ⟨trivial, fun _ _ => trivial, fun _ _ => trivial⟩

/-- A lookup that is made, and answered with the payment, gives the payment. -/
theorem lookupAtProvider_finds {bound : BoundProvider} (hbound : bound.findByIdempotencyKey = true)
    (providerAccountId operationId : String) :
    (lookupAtProvider bound providerAccountId operationId).Meets (Finds remote) Unlinked
      fun r => r = .ok (some remote) := by
  unfold lookupAtProvider
  rw [if_pos hbound]
  refine Prog.meets_perform_attempt_bind.mpr ⟨trivial, fun r hr => ?_⟩
  have hfound : r = .ok (some remote) := hr
  subst hfound
  rfl

theorem requireAccount_unlinked (accountId : String) :
    (requireAccount accountId).Meets (Finds remote) Unlinked fun _ => True := by
  unfold requireAccount
  refine Prog.meets_perform_bind.mpr ⟨trivial, fun account _ => ?_, fun _ _ => trivial⟩
  cases account with
  | none => trivial
  | some account => cases hp : account.providerAccountId <;> simp [hp, fail]

theorem operationIdOf_unlinked (actor : ActorContext) :
    (operationIdOf actor).Meets (Finds remote) Unlinked fun _ => True := by
  unfold operationIdOf
  cases actor.operationId with
  | none => exact Prog.meets_perform.mpr ⟨trivial, fun _ _ => trivial⟩
  | some operationId => trivial

theorem resolveDestination_unlinked (dto : SendPixDto) :
    (resolveDestination dto).Meets (Finds remote) Unlinked fun _ => True := by
  unfold resolveDestination
  cases dto.destinationError <;> trivial

/-- Where the lookup finds the payment, recovery records it without a hold. -/
theorem recovery_unlinked (actor : ActorContext) (accountId : String) (dto : SendPixDto) :
    (send actor accountId dto true).Meets (Finds remote) Unlinked fun _ => True := by
  unfold send
  refine Prog.meets_bind.mpr (Prog.meets_mono (fun _ _ h => h) (fun _ h => h) (fun r _ => ?_)
    (requireAccount_unlinked accountId))
  cases r with
  | error e => trivial
  | ok found =>
    refine Prog.meets_bind.mpr (Prog.meets_mono (fun _ _ h => h) (fun _ h => h) (fun r _ => ?_)
      (operationIdOf_unlinked actor))
    cases r with
    | error e => trivial
    | ok operationId =>
      refine Prog.meets_perform_bind.mpr ⟨trivial, fun already _ => ?_, fun _ _ => trivial⟩
      cases already with
      | some transaction => trivial
      | none =>
        refine Prog.meets_perform_bind.mpr ⟨trivial, fun bound hbound => ?_, fun _ _ => trivial⟩
        refine Prog.meets_bind.mpr (Prog.meets_mono (fun _ _ h => h) (fun _ h => h) (fun r _ => ?_)
          (resolveDestination_unlinked dto))
        cases r with
        | error e => trivial
        | ok _ =>
          refine Prog.meets_bind.mpr (Prog.meets_mono (fun _ _ h => h) (fun _ h => h)
            (fun r hr => ?_) (lookupAtProvider_finds hbound found.2 operationId))
          subst hr
          refine Prog.meets_bind.mpr (Prog.meets_mono (fun _ _ h => h) (fun _ h => h) (fun r _ => ?_)
            (recordSent_unlinked _ _))
          cases r <;> trivial

/-- Every transaction that a run stores anew stands without a hold. -/
def StoresUnlinked (w w' : World) : Prop :=
  ∀ id, w'.transactions.get id = w.transactions.get id ∨
    ∃ t, w'.transactions.get id = some t ∧ t.ledgerPendingTransactionId = none

theorem recovery_stores_unlinked (actor : ActorContext) (accountId : String) (dto : SendPixDto)
    (w : World) :
    (send actor accountId dto true).wp (finding remote) (fun _ w' => StoresUnlinked w w') w := by
  have hrefl : ∀ v : World, StoresUnlinked v v := fun v id => .inl rfl
  have htrans : ∀ {v u x : World}, StoresUnlinked v u → StoresUnlinked u x → StoresUnlinked v x := by
    intro v u x hvu hux id
    obtain h | h := hux id
    · obtain h' | ⟨t, h', hn⟩ := hvu id
      · exact .inl (h.trans h')
      · exact .inr ⟨t, h.trans h', hn⟩
    · exact .inr h
  refine Prog.wp_mono _ (Prog.wp_of_meets hrefl htrans (fun hq he => ⟨he.2, finding_keeps hq he⟩)
    (recovery_unlinked actor accountId dto) w) fun r w' h => h.2

variable {actor : ActorContext} {accountId : String} {dto : SendPixDto} {t : TransactionRecord}
  {r : Except Thrown SendOutcome}

/-- Whenever an execution that resumes an operation finds the payment at the
provider and records it, the record names no hold, so that no later event of
the payment reaches the ledger. -/
theorem recovery_never_keeps_hold (hrun : (send actor accountId dto true).Runs (finding remote) w r w')
    (hnew : w.transactions.get t.id = none) (hrecorded : w'.transactions.get t.id = some t) :
    (∀ hold, t.ledgerPendingTransactionId ≠ some hold) ∧
      ∀ (ctx : ApplyContext) (draft : CanonicalEventDraft) (data : PaymentEventData)
        (incoming : TransactionStatus) (v : World),
        (applyToExisting ctx draft data incoming t).wp env (fun _ v' => v'.ledger = v.ledger) v := by
  have hnone : t.ledgerPendingTransactionId = none := by
    have hstored : StoresUnlinked w w' := hrun.of_wp (recovery_stores_unlinked actor accountId dto w)
    obtain h | ⟨t', h, hn⟩ := hstored t.id
    · rw [hrecorded, hnew] at h
      cases h
    · rw [hrecorded, Option.some.injEq] at h
      exact h ▸ hn
  refine ⟨fun hold h => ?_, fun ctx draft data incoming v => applyToExisting_keeps fun h => ?_⟩
  · rw [hnone] at h
    cases h
  · obtain ⟨hold, _, h, _⟩ := h
    rw [hnone] at h
    cases h

def sampleActor : ActorContext := ⟨"con_1", some "opr_1"⟩

def sampleDto : SendPixDto := ⟨6000, none, none⟩

def sampleRemote : PixTransaction := ⟨"ptx_1", some "E1", .PROCESSING, none, none⟩

/-- The first execution up to the provider's acceptance. -/
def sendScript : List Choice :=
  [{}, {}, { mint := sampleMint "ltx_1" }, { sent := .accepted sampleRemote }]

/-- The provider has the payment and the ledger its hold; nothing else is stored. -/
def crashedWorld : World := { sampleWorld heldLedger with payments := ["opr_1"] }

def recoveredTransfer : TransactionRecord :=
  storedTransaction (sentDraft sampleTransfer "txn_1" sampleRemote none 2000)

def recoveredWorld : World :=
  { crashedWorld with
    minted := ["txn_1"], transactions := Rows.empty.put recoveredTransfer }

theorem crashed_visited :
    (send sampleActor "acc_1" sampleDto false).Visits env (sampleWorld fundedLedger) crashedWorld :=
  Prog.visits_of_stop answer (fun c _ _ _ _ h => ⟨c, h⟩) sendScript rfl

theorem recovered_run :
    (send sampleActor "acc_1" sampleDto true).Runs (finding sampleRemote) crashedWorld
      (.ok (.settled { recoveredTransfer with endToEndId := some "E1" })) recoveredWorld :=
  ⟨_, _, ⟨⟨{}, rfl⟩, trivial⟩, _, _, ⟨⟨{}, rfl⟩, trivial⟩, _, _, ⟨⟨{}, rfl⟩, rfl⟩,
    _, _, ⟨⟨{ found := .ok (some sampleRemote) }, rfl⟩, rfl⟩, _, _, ⟨⟨{ instant := 2000 }, rfl⟩, trivial⟩,
    _, _, ⟨⟨{ ulid := "1" }, rfl⟩, trivial⟩, _, _, ⟨⟨{}, rfl⟩, trivial⟩, _, _, ⟨⟨{}, rfl⟩, trivial⟩,
    rfl, rfl⟩

theorem recovery_never_keeps_hold_sample :
    (∀ hold, recoveredTransfer.ledgerPendingTransactionId ≠ some hold) ∧
      ∀ (ctx : ApplyContext) (draft : CanonicalEventDraft) (data : PaymentEventData)
        (incoming : TransactionStatus) (v : World),
        (applyToExisting ctx draft data incoming recoveredTransfer).wp env
          (fun _ v' => v'.ledger = v.ledger) v :=
  recovery_never_keeps_hold recovered_run rfl rfl

/-- A crash right after the provider took the payment: the record that recovery
stores has lost the hold that the ledger still keeps. -/
theorem recovery_loses_hold :
    ¬ ∀ (w₀ w w' : World) (actor : ActorContext) (accountId operationId hold : String)
      (dto : SendPixDto) (remote : PixTransaction) (r : Except Thrown SendOutcome)
      (t : TransactionRecord), actor.operationId = some operationId →
      (send actor accountId dto false).Visits env w₀ w → holdOf w.ledger operationId = some hold →
      (send actor accountId dto true).Runs (finding remote) w r w' →
      w.transactions.get t.id = none → w'.transactions.get t.id = some t →
      t.ledgerPendingTransactionId = some hold := by
  intro h
  have hlost := h (sampleWorld fundedLedger) crashedWorld recoveredWorld sampleActor "acc_1" "opr_1"
    "ltx_1" sampleDto sampleRemote _ recoveredTransfer rfl crashed_visited (by decide)
    recovered_run rfl rfl
  cases hlost

end BaasConnector.Pix.Recovery
