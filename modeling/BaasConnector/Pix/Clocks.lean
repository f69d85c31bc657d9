import BaasConnector.Webhooks.Matching

namespace BaasConnector.Pix.Clocks

open BaasConnector.Lib.Effects BaasConnector.Lib.Keyed BaasConnector.Taxonomy.Status
open BaasConnector.Taxonomy.Errors BaasConnector.Connector.Records BaasConnector.Connector.Calls
open BaasConnector.Connector.Database BaasConnector.Connector.Replies
open BaasConnector.Pix.Transfers BaasConnector.Pix.OperationReconciler
open BaasConnector.Pix.HoldResolution BaasConnector.Webhooks.Apply BaasConnector.Webhooks.Matching

/-- Our clock shows one instant. -/
def clockReads (now : Int) : (q : Call) → Except Thrown (Answer q) → Prop
  | .now, r => r = .ok now
  | _, _ => True

def envAt (now : Int) : Prog.Env Call Answer Thrown World := fun w q r w' =>
  env w q r w' ∧ clockReads now q r

/-- Whatever the call writes to the transaction carries this instant. -/
def stampsWith (id : String) (instant : Int) : Call → Prop
  | .transactionCreate t => t.id = id → t.lastEventAt = some instant
  | .transactionApplyStatusChange c => c.transactionId = id → c.occurredAt = instant
  | _ => True

/-- Between two worlds the transaction is untouched, or it is written with this
instant, and then its rank has gone up. -/
def Stamped (id : String) (instant : Int) (w w' : World) : Prop :=
  w'.transactions.get id = w.transactions.get id ∨
    ∃ t', w'.transactions.get id = some t' ∧ t'.lastEventAt = some instant ∧
      ∀ t, w.transactions.get id = some t → transactionRanks t.status < transactionRanks t'.status

variable {id : String} {instant now : Int} {w w' : World}

theorem Stamped.refl (w : World) : Stamped id instant w w := .inl rfl

theorem Stamped.trans {w v u : World} (h : Stamped id instant w v) (h' : Stamped id instant v u) :
    Stamped id instant w u := by
  obtain h' | ⟨t', ht', hs', hr'⟩ := h'
  · obtain h | ⟨t, ht, hs, hr⟩ := h
    · exact .inl (h'.trans h)
    · exact .inr ⟨t, by rw [h', ht], hs, hr⟩
  · refine .inr ⟨t', ht', hs', fun t ht => ?_⟩
    obtain h | ⟨v, hv, _, hr⟩ := h
    · exact hr' t (by rw [h, ht])
    · exact (hr t ht).trans (hr' v hv)

theorem stamped_of_env {q : Call} {r : Except Thrown (Answer q)} (hq : stampsWith id instant q)
    (h : env w q r w') : Stamped id instant w w' := by
  obtain h | ⟨t, rfl, hid, hnew, hput⟩ | ⟨c, t, rfl, hid, ht, hg, hput⟩ := env_transactions h id
  · exact .inl h
  · exact .inr ⟨_, hput, hq hid, fun t ht => by simp [hnew] at ht⟩
  · refine .inr ⟨_, hput, congrArg some (hq hid), fun t' ht' => ?_⟩
    obtain rfl : t = t' := Option.some.inj (ht.symm.trans ht')
    exact (guardStatus_none.mp hg).2.1

theorem stamped_of_runs {α : Type} {p : Flow α} {r : Except Thrown α}
    (hp : p.Meets (clockReads now) (stampsWith id instant) fun _ => True)
    (h : p.Runs (envAt now) w r w') : Stamped id instant w w' :=
  (h.of_wp (Prog.wp_of_meets Stamped.refl Stamped.trans
    (fun hq he => ⟨he.2, stamped_of_env hq he.1⟩) hp w)).2

theorem recordSent_stamps (t : Transfer) (sent : PixTransaction) (hold : Option String) :
    (recordSent t sent hold).Meets (clockReads now) (stampsWith id now) fun _ => True := by
  simp [recordSent, stampsWith, clockReads, sentDraft, draft]

theorem onUnknownOutcome_stamps (t : Transfer) (hold : String) :
    (onUnknownOutcome t hold).Meets (clockReads now) (stampsWith id now) fun _ => True := by
  simp [onUnknownOutcome, stampsWith, clockReads, draft]

theorem applyOutcome_stamps (operation : OperationRecord) (transaction : TransactionRecord)
    (found : PixTransaction) :
    (applyOutcome operation transaction found).Meets (clockReads now) (stampsWith id now)
      fun _ => True := by
  have hhold : (holdResolution transaction.ledgerPendingTransactionId found.status
      operation.id).Meets (clockReads now) (stampsWith id now) fun _ => True :=
    holdResolution_meets (fun _ => trivial) _ _ _
  rw [← resolveHold_eq] at hhold
  unfold applyOutcome recordOutcome
  simp only [Prog.bind_eq, Prog.meets_perform_bind, clockReads, Except.ok.injEq]
  refine ⟨trivial, ?_, by simp⟩
  rintro reading rfl
  rw [Prog.meets_bind]
  refine Prog.meets_mono (fun _ _ h => h) (fun _ h => h) (fun r _ => ?_) hhold
  cases r with
  | error e => trivial
  | ok posted =>
    simp only [onResult_ok, Prog.meets_perform_bind, stampsWith, outcomeChange]
    refine ⟨by simp, fun change _ => ⟨trivial, fun _ _ => ⟨trivial, fun _ _ => ?_, ?_⟩, ?_⟩, ?_⟩
    · cases change <;> trivial
    all_goals simp

variable {ctx : ApplyContext} {draft : CanonicalEventDraft}

theorem stampsWith_bookkeeping (q : Call) (h : Call.bookkeeping q = true) : stampsWith id instant q := by
  cases q <;> simp_all [Call.bookkeeping, stampsWith]

theorem creditOnce_stamps (data : PaymentEventData) (account : AccountRecord) (availableId : String)
    (duplicate : Option TransactionRecord) :
    (creditOnce ctx draft data account availableId duplicate).Within
      (stampsWith id (occurredAtOf ctx draft)) := by
  cases duplicate with
  | none => simp [creditOnce, creditInbound, stampsWith, inboundDraft]
  | some _ =>
    have h : (onDuplicate ctx "e2eid ja registrado").Within (stampsWith id (occurredAtOf ctx draft)) :=
      onDuplicate_within stampsWith_bookkeeping ctx _
    simpa [creditOnce, Prog.meets_bind] using h

theorem receiveInbound_stamps (data : PaymentEventData) :
    (receiveInbound ctx draft data).Within (stampsWith id (occurredAtOf ctx draft)) := by
  unfold receiveInbound
  cases data.providerAccountId with
  | none => trivial
  | some providerAccountId =>
    refine Prog.meets_perform_bind.mpr ⟨trivial, fun account _ => ?_, fun _ _ => trivial⟩
    cases account with
    | none => trivial
    | some account =>
      cases hl : account.ledgerAvailableAccountId with
      | none => simp [hl]
      | some availableId =>
        simp only [hl]
        cases data.endToEndId with
        | none => exact creditOnce_stamps data account availableId none
        | some e2e =>
          exact Prog.meets_perform_bind.mpr ⟨trivial,
            fun duplicate _ => creditOnce_stamps data account availableId duplicate, fun _ _ => trivial⟩

theorem applyTransaction_stamps (transitionTo : TransactionStatus) (data : PaymentEventData) :
    (applyTransaction ctx draft transitionTo data).Within
      (stampsWith id (occurredAtOf ctx draft)) := by
  have hrest : ∀ found, Prog.Within (stampsWith id (occurredAtOf ctx draft))
      (match found with
        | some existing => applyToExisting ctx draft data (data.status.getD transitionTo) existing
        | none =>
          if data.direction ≠ some PaymentDirection.incoming then pure DraftOutcome.ignored
          else receiveInbound ctx draft data) := by
    intro found
    cases found with
    | some existing =>
      exact applyToExisting_within stampsWith_bookkeeping (fun _ => trivial) ctx draft data _ existing
        fun _ _ => rfl
    | none =>
      simp only
      split
      · trivial
      · exact receiveInbound_stamps data
  unfold applyTransaction findTransaction
  simp only [Prog.bind_eq, Prog.bind_assoc]
  refine Prog.meets_perform_bind.mpr ⟨trivial, fun found _ => ?_, fun _ _ => trivial⟩
  cases found with
  | some existing => exact hrest (some existing)
  | none =>
    cases data.endToEndId with
    | none => exact hrest none
    | some e2e =>
      exact Prog.meets_perform_bind.mpr ⟨trivial, fun found _ => hrest found, fun _ _ => trivial⟩

/-- Where the instant of a write comes from. -/
inductive Stamp
  | ours (reading : Int)
  | provider (instant : Int)
deriving DecidableEq, Repr

def Stamp.time : Stamp → Int
  | .ours reading => reading
  | .provider instant => instant

/-- The last write that took effect, and the provider instants applied so far. -/
structure Trail where
  last : Stamp
  seen : List Int

/-- An event that carries no timestamp is dated by our clock on receipt. -/
def eventStamp (ctx : ApplyContext) (draft : CanonicalEventDraft) : Stamp :=
  match draft.occurredAt with
  | some instant => .provider instant
  | none => .ours ctx.receivedAt

def Trail.write (trail : Trail) : Stamp → Trail
  | .ours reading => ⟨.ours reading, trail.seen⟩
  | .provider instant => ⟨.provider instant, instant :: trail.seen⟩

def statusAt (w : World) (id : String) : Option TransactionStatus :=
  (w.transactions.get id).map (·.status)

/-- A write took effect when the status moved. -/
def Trail.after (trail : Trail) (stamp : Stamp) (id : String) (w w' : World) : Trail :=
  if statusAt w' id = statusAt w id then trail else trail.write stamp

/-- The life of one outgoing transaction: one of the two writes of `send` stores
it, reconciler outcomes and provider events follow in any order and under any
clock readings, and whatever else happens does not touch it. -/
inductive Lifetime (id : String) : World → Trail → Prop
  | sent {t : Transfer} {sent : PixTransaction} {hold : Option String} {now : Int} {w w' : World}
      {r : Except Thrown TransactionRecord} (hnew : w.transactions.get id = none)
      (hrun : (recordSent t sent hold).Runs (envAt now) w r w')
      (hstored : w'.transactions.get id ≠ none) : Lifetime id w' ⟨.ours now, []⟩
  | unknown {t : Transfer} {hold : String} {now : Int} {w w' : World} {r : Except Thrown SendOutcome}
      (hnew : w.transactions.get id = none)
      (hrun : (onUnknownOutcome t hold).Runs (envAt now) w r w')
      (hstored : w'.transactions.get id ≠ none) : Lifetime id w' ⟨.ours now, []⟩
  | outcome {operation : OperationRecord} {transaction : TransactionRecord} {found : PixTransaction}
      {now : Int} {w w' : World} {r : Except Thrown ReconcileOutcome} {trail : Trail}
      (h : Lifetime id w trail)
      (hrun : (applyOutcome operation transaction found).Runs (envAt now) w r w') :
      Lifetime id w' (trail.after (.ours now) id w w')
  | event {ctx : ApplyContext} {draft : CanonicalEventDraft} {transitionTo : TransactionStatus}
      {data : PaymentEventData} {w w' : World} {r : Except Thrown DraftOutcome} {trail : Trail}
      (h : Lifetime id w trail)
      (hrun : (applyTransaction ctx draft transitionTo data).Runs env w r w') :
      Lifetime id w' (trail.after (eventStamp ctx draft) id w w')
  | elsewhere {w w' : World} {trail : Trail} (h : Lifetime id w trail)
      (hsame : w'.transactions.get id = w.transactions.get id) : Lifetime id w' trail

/-- The stored `lastEventAt` is the instant of the last write, whichever clock
it was read from. -/
def Dated (id : String) (w : World) (trail : Trail) : Prop :=
  ∃ t, w.transactions.get id = some t ∧ t.lastEventAt = some trail.last.time ∧
    ∀ instant, trail.last = .provider instant → instant ∈ trail.seen

theorem dated_of_new (hnew : w.transactions.get id = none) (h : Stamped id now w w')
    (hstored : w'.transactions.get id ≠ none) : Dated id w' ⟨.ours now, []⟩ := by
  obtain h | ⟨t, ht, hs, _⟩ := h
  · exact absurd (h.trans hnew) hstored
  · exact ⟨t, ht, hs, fun _ h => nomatch h⟩

theorem dated_after {trail : Trail} {stamp : Stamp} (hd : Dated id w trail)
    (h : Stamped id stamp.time w w') : Dated id w' (trail.after stamp id w w') := by
  obtain ⟨t, ht, hlast, hseen⟩ := hd
  obtain h | ⟨t', ht', hs', hr'⟩ := h
  · rw [Trail.after, if_pos (by rw [statusAt, statusAt, h])]
    exact ⟨t, by rw [h, ht], hlast, hseen⟩
  · have hne : statusAt w' id ≠ statusAt w id := by
      have hlt := hr' t ht
      simp only [statusAt, ht, ht', Option.map_some, ne_eq, Option.some.injEq]
      exact fun he => absurd hlt (by simp [he])
    rw [Trail.after, if_neg hne]
    cases stamp with
    | ours reading => exact ⟨t', ht', hs', fun _ h => nomatch h⟩
    | provider instant =>
      refine ⟨t', ht', hs', fun i hi => ?_⟩
      simp only [Trail.write, Stamp.provider.injEq] at hi
      simp [Trail.write, hi]

theorem occurredAtOf_eq (ctx : ApplyContext) (draft : CanonicalEventDraft) :
    occurredAtOf ctx draft = (eventStamp ctx draft).time := by
  unfold occurredAtOf eventStamp
  cases draft.occurredAt <;> rfl

theorem Lifetime.dated {trail : Trail} (h : Lifetime id w trail) : Dated id w trail := by
  induction h with
  | sent hnew hrun hstored =>
    exact dated_of_new hnew (stamped_of_runs (recordSent_stamps _ _ _) hrun) hstored
  | unknown hnew hrun hstored =>
    exact dated_of_new hnew (stamped_of_runs (onUnknownOutcome_stamps _ _) hrun) hstored
  | outcome _ hrun ih => exact dated_after ih (stamped_of_runs (applyOutcome_stamps _ _ _) hrun)
  | event _ hrun ih =>
    refine dated_after ih ?_
    rw [← occurredAtOf_eq]
    exact (hrun.of_wp (Prog.wp_of_meets Stamped.refl Stamped.trans
      (fun hq he => ⟨trivial, stamped_of_env hq he⟩) (applyTransaction_stamps _ _) _)).2
  | elsewhere _ hsame ih =>
    obtain ⟨t, ht, hrest⟩ := ih
    exact ⟨t, by rw [hsame, ht], hrest⟩

/-- A provider event later than every provider event applied before it is kept
from being stale exactly when our clock did not run ahead of it at the last write. -/
theorem later_event_not_stale {trail : Trail} {record : TransactionRecord}
    {incoming : TransactionStatus} {occurredAt : Int} (h : Lifetime id w trail)
    (hstored : w.transactions.get id = some record) (hlater : ∀ t ∈ trail.seen, t < occurredAt) :
    record.guard incoming occurredAt ≠ some (.stale .stale_timestamp) ↔
      ∀ reading, trail.last = .ours reading → reading ≤ occurredAt := by
  obtain ⟨t, ht, hlast, hseen⟩ := h.dated
  obtain rfl : t = record := Option.some.inj (ht.symm.trans hstored)
  rw [Ne, TransactionRecord.guard, guardStatus_stale_timestamp, hlast]
  cases hs : trail.last with
  | ours reading => simp [Stamp.time]
  | provider instant =>
    have := hlater instant (hseen instant hs)
    simp [Stamp.time]
    omega

/-- Replies under a clock that shows one instant. -/
def answerAt (now : Int) (c : Choice) (q : Call) (w : World) : Reply (Answer q) :=
  answer { c with instant := now } q w

theorem envAt_of_answerAt (now : Int) (c : Choice) (q : Call) (w : World)
    (r : Except Thrown (Answer q)) (w' : World) (h : answerAt now c q w = some (r, w')) :
    envAt now w q r w' := by
  refine ⟨⟨_, h⟩, ?_⟩
  cases q with
  | now =>
    unfold answerAt answer at h
    cases hf : c.fault with
    | none =>
      unfold respond at h
      simp only [hf, reply, Option.some.injEq, Prod.mk.injEq] at h
      exact h.1.symm
    | some message => simp [hf, Call.fallible] at h
  | _ => trivial

theorem runs_at {α : Type} {p : Flow α} {r : Except Thrown α} (script : List Choice)
    (h : p.play (answerAt now) script w = some (r, w')) : p.Runs (envAt now) w r w' :=
  Prog.runs_of_play (envAt_of_answerAt now) h

/-- The provider answers a transfer with PROCESSING while our clock shows 1000. -/
def sampleSent : PixTransaction := ⟨"ptx_1", some "E1", .PROCESSING, none, none⟩

theorem sentWorld_lifetime : Lifetime "txn_1" { sentWorld .PROCESSING with minted := ["txn_1"] }
    ⟨.ours 1000, []⟩ :=
  have hnew : (sampleWorld heldLedger).transactions.get "txn_1" = none := rfl
  .sent hnew (runs_at [{}, { ulid := "1" }, {}, {}] rfl) (by decide)

theorem later_event_not_stale_on_time :
    (sentTransfer .PROCESSING).guard .SETTLED 1100 ≠ some (.stale .stale_timestamp) :=
  (later_event_not_stale sentWorld_lifetime rfl (by decide)).mpr fun reading h => by
    rw [← Stamp.ours.inj h]
    decide

/-- Our clock is 100 ms ahead of the provider's: the settlement that follows
the answer is dated before the local write and is dropped. -/
theorem settlement_lost_to_local_clock :
    ¬ ∀ (id : String) (w : World) (trail : Trail) (record : TransactionRecord)
      (incoming : TransactionStatus) (occurredAt : Int),
      Lifetime id w trail → w.transactions.get id = some record →
      incoming ∈ transactionTransitions record.status → (∀ t ∈ trail.seen, t < occurredAt) →
      record.guard incoming occurredAt ≠ some (.stale .stale_timestamp) := by
  intro h
  exact h "txn_1" _ _ (sentTransfer .PROCESSING) .SETTLED 900 sentWorld_lifetime rfl (by decide)
    (by simp) (by decide)

end BaasConnector.Pix.Clocks
