import BaasConnector.Ledger.Placement
import BaasConnector.Lib.Totals
import BaasConnector.Lib.Threads
import BaasConnector.Pix.HoldResolution
import BaasConnector.Pix.Refunds
import BaasConnector.Webhooks.Footprint

namespace BaasConnector.Pix.RefundRuns

open BaasConnector.Lib.Effects BaasConnector.Lib.Keyed BaasConnector.Lib.Budget
open BaasConnector.Taxonomy.Status
open BaasConnector.Taxonomy.Errors BaasConnector.Ledger.Types BaasConnector.Ledger.MemoryStore
open BaasConnector.Ledger.Shadow BaasConnector.Ledger.Holds BaasConnector.Ledger.Placement
open BaasConnector.Connector.Records BaasConnector.Connector.Calls BaasConnector.Connector.Database
open BaasConnector.Connector.Replies BaasConnector.Pix.OperationReconciler
open BaasConnector.Pix.HoldResolution BaasConnector.Pix.Transfers BaasConnector.Pix.Refunds
open BaasConnector.Webhooks.Footprint

/-- A refund that the provider was asked for and did not turn down. -/
structure SentRefund where
  operationId : String
  originalEndToEndId : String
  amountCents : Int
deriving DecidableEq, Repr

/-- The stored state with the refunds that went out. -/
structure Books where
  world : World
  sent : List SentRefund

def recorded : (q : Call) → Except Thrown (Answer q) → List SentRefund → List SentRefund
  | .providerRefund request, .ok _, sent | .providerRefund request, .error (.outcomeUnknown _), sent =>
    ⟨request.idempotencyKey, request.originalEndToEndId, request.amountCents⟩ :: sent
  | _, _, sent => sent

def booksEnv : Prog.Env Call Answer Thrown Books := fun b q r b' =>
  env b.world q r b'.world ∧ b'.sent = recorded q r b.sent

/-- The refund of an operation is stored as failed. -/
def failed (w : World) (operationId : String) : Bool :=
  (w.transactions.search fun t => t.idempotencyKey == some operationId && isFailed t.status).isSome

/-- What the refunds of an original come to that have not failed. -/
def live (w : World) (endToEndId : String) : List SentRefund → Int
  | [] => 0
  | refund :: sent =>
    (if refund.originalEndToEndId = endToEndId ∧ failed w refund.operationId = false then
      refund.amountCents else 0) + live w endToEndId sent

/-- How far a refund has come. -/
inductive Stage
  | fresh | held (amountCents : Int) | past
deriving DecidableEq, Repr

/-- A refund call under way: what it asks for, and what it has read and done. -/
structure Request where
  asked : Option Int
  operationId : Option String
  original : Option TransactionRecord
  stage : Stage

/-- The history of a thread. Threads other than refunds have none. -/
abbrev History := Option Request

def next : History → (q : Call) → Except Thrown (Answer q) → History
  | some p, .newId .operation, .ok id => some { p with operationId := some id }
  | some p, .transactionFindById _, .ok found => some { p with original := found }
  | some p, .transactionFindByEndToEndId _, .ok found => some { p with original := found }
  | some p, .ledger (.authorizeOut _ amountCents _ _), .ok _ => some { p with stage := .held amountCents }
  | some p, .providerRefund _, _ => some { p with stage := .past }
  | h, _, _ => h

def holdKey (operationId : String) : String := "pix-refund:" ++ operationId

def voidKey (operationId : String) : String := "pix-refund-void:" ++ operationId

/-- The amount that a call refunds of an original. -/
def amountOf (asked : Option Int) (original : TransactionRecord) : Int :=
  refundAmount ⟨none, "", asked, none⟩ original

/-- The calls of the rest of the connector, which refunds nothing. -/
def Foreign : Call → Prop
  | .providerRefund _ => False
  | .ledger command => ∀ operationId, commandKey command ≠ holdKey operationId
  | _ => True

def guar : History → Call → Prop
  | none, q => Foreign q
  | some p, .newId .operation => p.stage = .fresh ∧ p.operationId = none
  | some p, .transactionFindById _ | some p, .transactionFindByEndToEndId _ => p.stage = .fresh
  | some p, .ledger command => (∃ operationId original availableId externalRef,
      p.stage = .fresh ∧ p.operationId = some operationId ∧ p.original = some original ∧
        original.refundedAmountCents + amountOf p.asked original ≤ original.amountCents ∧
        command = .authorizeOut availableId (amountOf p.asked original) (holdKey operationId)
          externalRef) ∨
      ∃ hold operationId, command = .voidOut hold (voidKey operationId)
  | some p, .providerRefund request => p.stage = .held request.amountCents ∧
      ∃ original, p.original = some original ∧ original.endToEndId = some request.originalEndToEndId ∧
        request.amountCents = amountOf p.asked original
  | some _, _ => True

def refunding : Protocol Call Answer Thrown History where
  next := next
  rely _ _ _ := True
  guar := guar

/-- A refund call, under the operation that is minted for its own key. -/
def refundCall (connectionId accountId : String) (input : RefundInput) : Flow Unit := do
  let operationId ← ask (.newId .operation)
  let _ ← refund ⟨connectionId, some operationId⟩ accountId input

def asking (input : RefundInput) : Request := ⟨input.amountCents, none, none, .fresh⟩

variable {p : Request}

theorem findOriginal_follows (hp : p.stage = .fresh) (accountId : String) (input : RefundInput) :
    (findOriginal accountId input).Follows refunding
      (fun s r => ∀ original, r = .ok original → s = some { p with original := some original })
      (some p) := by
  have hcheck : ∀ found : Option TransactionRecord,
      (checkOriginal accountId found).Follows refunding
        (fun s r => ∀ original, r = .ok original → s = some { p with original := some original })
        (some { p with original := found }) := by
    intro found
    cases found with
    | none => exact fun _ h => by cases h
    | some original =>
      dsimp only [checkOriginal]
      split
      · exact fun _ h => by cases h
      · split
        · exact fun _ h => by cases h
        · exact fun _ h => by cases h; rfl
  unfold findOriginal
  cases input.transactionId with
  | some id =>
    exact Prog.follows_perform_bind.mpr ⟨hp, fun found _ => hcheck found, fun e _ _ h => by cases h⟩
  | none =>
    exact Prog.follows_perform_bind.mpr ⟨hp, fun found _ => hcheck found, fun e _ _ h => by cases h⟩

/-- The calls that a refund makes freely at any stage. -/
def Call.free : Call → Bool
  | .newId .operation | .transactionFindById _ | .transactionFindByEndToEndId _ | .ledger _
  | .providerRefund _ => false
  | _ => true

theorem free_allowed {q : Call} (hq : Call.free q = true) :
    refunding.guar (some p) q ∧ ∀ r, refunding.next (some p) q r = some p := by
  cases q with
  | newId kind => cases kind <;> simp_all [Call.free, refunding, guar, next]
  | _ => simp_all [Call.free, refunding, guar, next]

theorem free_follows {α : Type} {f : Flow α} (hf : f.Within fun q => Call.free q = true) :
    f.Follows refunding (fun s _ => s = some p) (some p) :=
  Prog.follows_of_within hf (fun _ hq => free_allowed hq) fun _ => rfl

theorem requireAccount_free (accountId : String) :
    (requireAccount accountId).Within fun q => Call.free q = true := by
  unfold requireAccount
  refine Prog.meets_perform_bind.mpr ⟨rfl, fun account _ => ?_, fun _ _ => trivial⟩
  cases account with
  | none => trivial
  | some account => cases hp : account.providerAccountId <;> simp [hp, fail]

theorem refundHeld_follows {original : TransactionRecord} {input : RefundInput}
    {endToEndId operationId : String}
    (hp : p = ⟨input.amountCents, some operationId, some original, .fresh⟩)
    (hend : original.endToEndId = some endToEndId)
    (hcheck : original.refundedAmountCents + refundAmount input original ≤ original.amountCents)
    (actor : ActorContext) (account : AccountRecord) (providerAccountId : String) (bound : BoundProvider) :
    (refundHeld actor account providerAccountId input original endToEndId
      (refundAmount input original) bound operationId).Follows refunding (fun _ _ => True) (some p) := by
  subst hp
  unfold refundHeld
  cases hl : account.ledgerAvailableAccountId with
  | none => simp [requireLedgerAccount, hl, fail]
  | some availableId =>
    simp only [requireLedgerAccount, hl, Prog.pure_eq, Prog.bind_eq, Prog.pure_bind]
    refine Prog.follows_perform_bind.mpr ⟨.inl ⟨operationId, original, availableId, some operationId,
      rfl, rfl, rfl, hcheck, rfl⟩, fun hold _ => ?_, fun _ _ => trivial⟩
    refine Prog.follows_perform_attempt_bind.mpr ⟨⟨rfl, original, rfl, hend, rfl⟩, fun r _ => ?_⟩
    match r with
    | .error (.outcomeUnknown e) => trivial
    | .error (.baas _) | .error (.failure _) =>
      refine Prog.follows_perform_bind.mpr ⟨.inr ⟨_, operationId, rfl⟩, fun _ _ => ?_, fun _ _ => trivial⟩
      exact Prog.follows_perform_bind.mpr ⟨trivial, fun _ _ => trivial, fun _ _ => trivial⟩
    | .ok refunded =>
      refine Prog.follows_perform_bind.mpr ⟨trivial, fun now _ => ?_, fun _ _ => trivial⟩
      refine Prog.follows_perform_bind.mpr ⟨trivial, fun id _ => ?_, fun _ _ => trivial⟩
      refine Prog.follows_perform_bind.mpr ⟨trivial, fun stored _ => ?_, fun _ _ => trivial⟩
      refine Prog.follows_perform_bind.mpr ⟨trivial, fun _ _ => ?_, fun _ _ => trivial⟩
      exact Prog.follows_perform_bind.mpr ⟨trivial, fun _ _ => trivial, fun _ _ => trivial⟩

theorem refund_follows (connectionId accountId operationId : String) (input : RefundInput) :
    (refund ⟨connectionId, some operationId⟩ accountId input).Follows refunding (fun _ _ => True)
      (some ⟨input.amountCents, some operationId, none, .fresh⟩) := by
  unfold refund
  refine Prog.follows_bind.mpr (Prog.follows_mono (fun s r hs => ?_)
    (free_follows (requireAccount_free accountId)))
  subst hs
  cases r with
  | error e => trivial
  | ok found =>
    rw [onResult_ok]
    simp only [operationIdOf, Prog.pure_eq, Prog.bind_eq, Prog.pure_bind]
    refine Prog.follows_bind.mpr (Prog.follows_mono (fun s r hs => ?_)
      (findOriginal_follows rfl accountId input))
    cases r with
    | error e => trivial
    | ok original =>
      have hs := hs original rfl
      subst hs
      rw [onResult_ok]
      cases hf : original.endToEndId.filter (fun id => !id.isEmpty) with
      | none => trivial
      | some endToEndId =>
        have hend : original.endToEndId = some endToEndId := (Option.filter_eq_some_iff.mp hf).1
        refine Prog.follows_perform_bind.mpr ⟨trivial, fun now _ => ?_, fun _ _ => trivial⟩
        split
        · trivial
        · split
          · trivial
          · next hcheck =>
            refine Prog.follows_perform_bind.mpr ⟨trivial, fun bound _ => ?_, fun _ _ => trivial⟩
            exact refundHeld_follows rfl hend (by omega) _ found.1 found.2 bound

theorem refundCall_follows (connectionId accountId : String) (input : RefundInput) :
    (refundCall connectionId accountId input).Follows refunding (fun _ _ => True)
      (some (asking input)) := by
  unfold refundCall
  refine Prog.follows_perform_bind.mpr ⟨⟨rfl, rfl⟩, fun operationId _ => ?_, fun _ _ => trivial⟩
  refine Prog.follows_bind.mpr (Prog.follows_mono (fun s r _ => ?_)
    (refund_follows connectionId accountId operationId input))
  cases r <;> trivial

abbrev Refunds := Pool Call Answer Thrown Unit History Books

/-- Refund calls, and beside them any programs that refund nothing. -/
def refunds (allowed : Refunds → Nat → Prop) : System Call Answer Thrown Unit History Books where
  env := booksEnv
  next := next
  start h f := (∃ connectionId accountId input, h = some (asking input) ∧
      f = refundCall connectionId accountId input) ∨ (h = none ∧ f.Within Foreign)
  allowed := allowed

/-- The amount is one that the check against the stored original lets through and
that the ledger takes a hold for. -/
def Draws (asked : Option Int) (original : TransactionRecord) : Prop :=
  0 < amountOf asked original ∧
    original.refundedAmountCents + amountOf asked original ≤ original.amountCents

instance (asked : Option Int) (original : TransactionRecord) : Decidable (Draws asked original) :=
  inferInstanceAs (Decidable (_ ∧ _))

/-- What a call under way, from its read of the original to its request, is to
refund of it. -/
def onWay (endToEndId : String) : Option History → Int
  | some (some ⟨asked, _, some original, .fresh⟩) =>
    if original.endToEndId = some endToEndId ∧ Draws asked original then amountOf asked original else 0
  | some (some ⟨_, _, some original, .held amountCents⟩) =>
    if original.endToEndId = some endToEndId then amountCents else 0
  | _ => 0

/-- The transaction that a read of the original finds. -/
def finds : Call → World → Option TransactionRecord
  | .transactionFindById id, w => w.transactions.get id
  | .transactionFindByEndToEndId e2e, w => w.transactions.search fun t => t.endToEndId == some e2e
  | _, _ => none

variable {original : TransactionRecord} {endToEndId : String} {w w' : World} {b b' : Books}
  {g : Nat → Option History} {q : Call}

/-- A call that reads the original does not ask for zero, and the other refunds of
it, live or under way, are counted in the stored `refundedAmountCents` that it
reads, or leave room for its amount in the stored `amountCents`. A status change
leaves the original its end-to-end id. -/
structure Counted (original : TransactionRecord) (endToEndId : String) (s : Refunds) (i : Nat) :
    Prop where
  asked : ∀ p q k t, s.threads i = some (some p, .call q k) → finds q s.world.world = some t →
    t.endToEndId = some endToEndId → p.asked ≠ some 0
  counted : ∀ p q k t, s.threads i = some (some p, .call q k) → finds q s.world.world = some t →
    t.endToEndId = some endToEndId →
      (∀ L : Finset Nat, i ∉ L → ∑ j ∈ L, onWay endToEndId (s.histories j) +
        live s.world.world endToEndId s.world.sent ≤ t.refundedAmountCents) ∨
      ∀ L : Finset Nat, i ∉ L → amountOf p.asked t + (∑ j ∈ L, onWay endToEndId (s.histories j) +
        live s.world.world endToEndId s.world.sent) ≤ t.amountCents
  keyed : ∀ h c k, s.threads i = some (h, .call (.transactionApplyStatusChange c) k) →
    c.transactionId = original.id → ∀ id, c.endToEndId = some id → id = endToEndId

/-- The received Pix keeps its amount and, as the only transaction, its end-to-end id. -/
structure Received (original : TransactionRecord) (endToEndId : String) (w : World) : Prop where
  stored : ∃ t, w.transactions.get original.id = some t ∧ t.endToEndId = some endToEndId ∧
    t.amountCents = original.amountCents
  unique : ∀ id t, w.transactions.get id = some t → t.endToEndId = some endToEndId → id = original.id

theorem Received.amount (h : Received original endToEndId w) {id : String} {t : TransactionRecord}
    (ht : w.transactions.get id = some t) (he : t.endToEndId = some endToEndId) :
    t.amountCents = original.amountCents := by
  obtain ⟨u, hu, _, hamount⟩ := h.stored
  rw [h.unique id t ht he, hu, Option.some.injEq] at ht
  exact ht ▸ hamount

theorem Received.put_own (h : Received original endToEndId w) {t : TransactionRecord}
    (hid : t.id = original.id) (he : t.endToEndId = some endToEndId)
    (hamount : t.amountCents = original.amountCents) (hw : w'.transactions = w.transactions.put t) :
    Received original endToEndId w' where
  stored := ⟨t, by rw [hw, ← hid, Rows.get_put_self], he, hamount⟩
  unique id v hv hve := by
    by_cases hk : id = t.id
    · rw [hk, hid]
    · rw [hw, Rows.get_put_ne _ t hk] at hv
      exact h.unique id v hv hve

theorem Received.put_other (h : Received original endToEndId w) {t : TransactionRecord}
    (hid : t.id ≠ original.id) (he : t.endToEndId ≠ some endToEndId)
    (hw : w'.transactions = w.transactions.put t) : Received original endToEndId w' where
  stored := by
    rw [hw, Rows.get_put_ne _ t hid.symm]
    exact h.stored
  unique id v hv hve := by
    rw [hw, Rows.get_put] at hv
    split at hv
    · rw [Option.some.injEq] at hv
      rw [hv] at he
      exact absurd hve he
    · exact h.unique id v hv hve

/-- An insert is refused where it would take the end-to-end id. -/
theorem received_create {t : TransactionRecord} {r : Except Thrown TransactionRecord}
    (h : Received original endToEndId w) (hc : w.createTransaction t = some (r, w')) :
    Received original endToEndId w' := by
  obtain ⟨u, hu, he, -⟩ := h.stored
  unfold World.createTransaction at hc
  split at hc
  · simp only [refuse, Option.some.injEq, Prod.mk.injEq] at hc
    exact hc.2 ▸ h
  · next hfree =>
    simp only [reply, Option.some.injEq, Prod.mk.injEq] at hc
    simp only [World.transactionConflict, Bool.or_eq_true, not_or, Bool.not_eq_true, Option.isSome_eq_false_iff,
      Option.isNone_iff_eq_none] at hfree
    refine h.put_other (t := storedTransaction t) (fun hid => ?_) (fun hend => ?_) (by rw [← hc.2])
    · rw [show t.id = original.id from hid, hu] at hfree
      exact absurd hfree.1 (Option.some_ne_none u)
    · have hno := Rows.search_eq_none.mp hfree.2 original.id u hu
      simp [taken, he, show t.endToEndId = some endToEndId from hend] at hno

/-- So is a change that would; the original's own may say it again. -/
theorem received_change {c : TransactionStatusChange}
    {r : Except Thrown (StatusChangeResult TransactionStatus TransactionRecord)}
    (h : Received original endToEndId w)
    (hkeyed : c.transactionId = original.id → ∀ id, c.endToEndId = some id → id = endToEndId)
    (hc : w.changeTransaction c = some (r, w')) : Received original endToEndId w' := by
  obtain ⟨u, hu, he, hamount⟩ := h.stored
  unfold World.changeTransaction at hc
  split at hc
  · simp only [reply, Option.some.injEq, Prod.mk.injEq] at hc
    exact hc.2 ▸ h
  · next t ht =>
    split at hc
    · simp only [reply, Option.some.injEq, Prod.mk.injEq] at hc
      exact hc.2 ▸ h
    · split at hc
      · simp only [refuse, Option.some.injEq, Prod.mk.injEq] at hc
        exact hc.2 ▸ h
      · next hfree =>
        simp only [reply, Option.some.injEq, Prod.mk.injEq] at hc
        have hid : (t.change c).id = c.transactionId := show t.id = c.transactionId from Rows.key_of_get ht
        by_cases hsame : c.transactionId = original.id
        · rw [hsame, hu, Option.some.injEq] at ht
          subst ht
          refine h.put_own (t := u.change c) (hid.trans hsame) ?_ hamount (by rw [← hc.2])
          cases hend : c.endToEndId with
          | none => simpa [TransactionRecord.change, hend] using he
          | some id => simp [TransactionRecord.change, hend, hkeyed hsame id hend]
        · refine h.put_other (t := t.change c) (hid ▸ hsame) (fun hend => ?_) (by rw [← hc.2])
          cases hce : c.endToEndId with
          | none =>
            have hown : t.endToEndId = some endToEndId := by simpa [TransactionRecord.change, hce] using hend
            exact hsame (h.unique _ t ht hown)
          | some id =>
            have hcend : id = endToEndId := by simpa [TransactionRecord.change, hce] using hend
            have hne : u.id ≠ t.id := by
              rw [Rows.key_of_get hu, Rows.key_of_get ht]
              exact Ne.symm hsame
            have hno := Rows.search_eq_none.mp (Option.not_isSome_iff_eq_none.mp hfree) original.id u hu
            simp [taken, he, hce, hcend, hne] at hno

theorem Received.env {r : Except Thrown (Answer q)} (h : Received original endToEndId w)
    (hkeyed : ∀ c, q = .transactionApplyStatusChange c → c.transactionId = original.id →
      ∀ id, c.endToEndId = some id → id = endToEndId)
    (henv : env w q r w') : Received original endToEndId w' := by
  obtain ⟨_, _, rfl⟩ | ⟨choice, _, hc⟩ := env_iff.mp henv
  · exact h
  by_cases hq : Call.touchesTransactions q = false
  · have hsame := respond_transactions hq hc
    exact ⟨by rw [hsame]; exact h.stored, by rw [hsame]; exact h.unique⟩
  cases q with
  | transactionCreate t => exact received_create h hc
  | transactionApplyStatusChange c => exact received_change h (hkeyed c rfl) hc
  | _ => simp [Call.touchesTransactions] at hq

theorem failed_iff {operationId : String} : failed w operationId = true ↔
    ∃ id t, w.transactions.get id = some t ∧ t.idempotencyKey = some operationId ∧
      isFailed t.status = true := by
  unfold failed
  constructor
  · intro h
    obtain ⟨t, ht⟩ := Option.isSome_iff_exists.mp h
    obtain ⟨hp, hg⟩ := Rows.search_some ht
    simp only [Bool.and_eq_true, beq_iff_eq] at hp
    exact ⟨t.id, t, hg, hp.1, hp.2⟩
  · rintro ⟨id, t, hg, hkey, hf⟩
    cases hs : w.transactions.search fun t =>
        t.idempotencyKey == some operationId && isFailed t.status with
    | some u => rfl
    | none =>
      have hn := Rows.search_eq_none.mp hs id t hg
      simp [hkey, hf] at hn

/-- A failed refund stays failed. -/
theorem failed_stays {r : Except Thrown (Answer q)} (henv : env w q r w') {operationId : String}
    (h : failed w operationId = true) : failed w' operationId = true := by
  obtain ⟨id, t, hg, hkey, hf⟩ := failed_iff.mp h
  refine failed_iff.mpr ?_
  obtain hsame | ⟨_, _, _, hnone, _⟩ | ⟨c, u, _, _, hu, hguard, _⟩ := env_transactions henv id
  · exact ⟨id, t, hsame ▸ hg, hkey, hf⟩
  · rw [hg] at hnone
    cases hnone
  · rw [hg, Option.some.injEq] at hu
    subst hu
    obtain ⟨_, _, hto⟩ := guardStatus_none.mp hguard
    cases hst : t.status <;> simp_all [isFailed, transactionTransitions]

theorem live_le (hstays : ∀ operationId, failed w operationId = true → failed w' operationId = true)
    {sent : List SentRefund} (hpos : ∀ refund ∈ sent, 0 < refund.amountCents) :
    live w' endToEndId sent ≤ live w endToEndId sent := by
  induction sent with
  | nil => exact Int.le_refl _
  | cons refund sent ih =>
    have hrest := ih fun x hx => hpos x (List.mem_cons_of_mem _ hx)
    have hx := hpos refund List.mem_cons_self
    have hone : (if refund.originalEndToEndId = endToEndId ∧ failed w' refund.operationId = false then
        refund.amountCents else 0) ≤
        (if refund.originalEndToEndId = endToEndId ∧ failed w refund.operationId = false then
          refund.amountCents else 0) := by
      split
      · next h =>
        have hnot : failed w refund.operationId = false := by
          cases hw : failed w refund.operationId with
          | false => rfl
          | true => rw [hstays _ hw] at h; cases h.2
        rw [if_pos ⟨h.1, hnot⟩]
      · split <;> omega
    unfold live
    omega

/-- What one call leaves of the use of a key. -/
theorem env_keys {r : Except Thrown (Answer q)} (henv : env w q r w') {k : String}
    (hk : ∀ command, q = .ledger command → k ≠ commandKey command) :
    w'.ledger.byIdempotencyKey.get k = w.ledger.byIdempotencyKey.get k := by
  by_cases hq : Call.touchesLedger q = false
  · rw [env_ledger hq henv]
  cases q with
  | ledger command =>
    obtain ⟨_, rfl⟩ | ⟨mint, _, _, rfl⟩ := env_ledger_command.mp henv
    · rfl
    · exact perform_keys _ _ command (hk command rfl)
  | ledgerOpenAccounts accountId =>
    obtain ⟨_, _, rfl⟩ | ⟨c, _, hc⟩ := env_iff.mp henv
    · rfl
    · unfold respond at hc
      simp only [World.openLedgerAccounts, reply] at hc
      grind [ensureAccount, LedgerStore.createAccount]
  | _ => simp [Call.touchesLedger] at hq

/-- The hold of an operation has been placed, or its key is free. -/
def FreeKey (w : World) (operationId : String) : Prop :=
  w.ledger.byIdempotencyKey.get (holdKey operationId) = none

/-- What holds between any two steps of a run. -/
structure Kept (original : TransactionRecord) (endToEndId : String) (b : Books)
    (g : Nat → Option History) : Prop where
  fits : Fits (fun j => onWay endToEndId (g j)) (live b.world endToEndId b.sent) original.amountCents
  received : Received original endToEndId b.world
  sent : ∀ refund ∈ b.sent, 0 < refund.amountCents
  held : ∀ j p amountCents, g j = some (some p) → p.stage = .held amountCents → 0 < amountCents
  asked : ∀ j p t, g j = some (some p) → p.original = some t → t.endToEndId = some endToEndId →
    p.asked ≠ some 0
  minted : ∀ j p operationId, g j = some (some p) → p.operationId = some operationId →
    operationId ∈ b.world.minted
  distinct : ∀ i j p p' operationId, g i = some (some p) → g j = some (some p') →
    p.operationId = some operationId → p'.operationId = some operationId → i = j
  unused : ∀ j p operationId, g j = some (some p) → p.stage = .fresh →
    p.operationId = some operationId → FreeKey b.world operationId
  keys : ∀ operationId, operationId ∉ b.world.minted → FreeKey b.world operationId

/-- What no step undoes. -/
structure Later (w w' : World) : Prop where
  minted : ∀ id ∈ w.minted, id ∈ w'.minted
  failed : ∀ operationId, failed w operationId = true → failed w' operationId = true

theorem later_of_env {r : Except Thrown (Answer q)} (henv : env w q r w') : Later w w' :=
  ⟨fun _ => env_minted henv, fun _ => failed_stays henv⟩

theorem Later.of_eq (h : w' = w) : Later w w' := by
  subst h
  exact ⟨fun _ h => h, fun _ h => h⟩

theorem onWay_nonneg {h : Option History}
    (hheld : ∀ p amountCents, h = some (some p) → p.stage = .held amountCents → 0 < amountCents) :
    0 ≤ onWay endToEndId h := by
  unfold onWay
  split
  · split
    · next hdraws => exact hdraws.2.1.le
    · exact Int.le_refl 0
  · next t amountCents =>
    have hpos := hheld _ amountCents rfl rfl
    split <;> omega
  · exact Int.le_refl 0

theorem Kept.nonneg (hk : Kept original endToEndId b g) (i : Nat) : 0 ≤ onWay endToEndId (g i) :=
  onWay_nonneg fun p a hp ha => hk.held i p a hp ha

/-- A step that is none of a refund's own. -/
theorem Kept.mono {g' : Nat → Option History} (hk : Kept original endToEndId b g)
    (hl : Later b.world b'.world) (hr : Received original endToEndId b'.world) (hsent : b'.sent = b.sent)
    (hkeys : ∀ operationId, FreeKey b.world operationId → FreeKey b'.world operationId)
    (hg : ∀ j p, g' j = some (some p) → g j = some (some p)) : Kept original endToEndId b' g' where
  fits := by
    refine hk.fits.mono (fun j => ?_) (by rw [hsent]; exact live_le hl.failed hk.sent)
    cases hj : g' j with
    | none => exact hk.nonneg j
    | some h =>
      cases h with
      | none => exact hk.nonneg j
      | some p => rw [hg j p hj]
  received := hr
  sent := by rw [hsent]; exact hk.sent
  held j p a hj := hk.held j p a (hg j p hj)
  asked j p t hj := hk.asked j p t (hg j p hj)
  minted j p operationId hj ho := hl.minted _ (hk.minted j p operationId (hg j p hj) ho)
  distinct i j p p' operationId hi hj := hk.distinct i j p p' operationId (hg i p hi) (hg j p' hj)
  unused j p operationId hj hf ho := hkeys _ (hk.unused j p operationId (hg j p hj) hf ho)
  keys operationId hn := hkeys _ (hk.keys operationId fun h => hn (hl.minted _ h))

theorem onWay_update (g : Nat → Option History) (i : Nat) (t : Option History) :
    (fun j => onWay endToEndId (Function.update g i t j)) =
      Function.update (fun j => onWay endToEndId (g j)) i (onWay endToEndId t) := by
  funext j
  by_cases h : j = i
  · subst h
    simp
  · simp [h]

theorem update_request {i j : Nat} {p : Request} {t : Option History}
    (h : Function.update g i t j = some (some p)) :
    j = i ∧ t = some (some p) ∨ j ≠ i ∧ g j = some (some p) := by
  by_cases hj : j = i
  · subst hj
    exact .inl ⟨rfl, by simpa using h⟩
  · exact .inr ⟨hj, by simpa [hj] using h⟩

theorem Kept.quiet {i : Nat} {h : History} (hk : Kept original endToEndId b g) (hi : g i = some h)
    (hl : Later b.world b'.world) (hr : Received original endToEndId b'.world) (hsent : b'.sent = b.sent)
    (hkeys : ∀ operationId, FreeKey b.world operationId → FreeKey b'.world operationId) :
    Kept original endToEndId b' (Function.update g i (some h)) := by
  rw [← hi, Function.update_eq_self]
  exact hk.mono hl hr hsent hkeys fun _ _ h => h

theorem kept_spawn {i : Nat} {input : RefundInput} (hk : Kept original endToEndId b g)
    (hfree : g i = none) :
    Kept original endToEndId b (Function.update g i (some (some (asking input)))) where
  fits := by
    rw [onWay_update]
    exact hk.fits.spend (by simp [hfree, onWay])
  received := hk.received
  sent := hk.sent
  held := by
    intro j p a hj ha
    obtain ⟨_, hp⟩ | ⟨_, hp⟩ := update_request hj
    · cases hp
      cases ha
    · exact hk.held j p a hp ha
  asked := by
    intro j p t hj ht
    obtain ⟨_, hp⟩ | ⟨_, hp⟩ := update_request hj
    · cases hp
      cases ht
    · exact hk.asked j p t hp ht
  minted := by
    intro j p operationId hj ho
    obtain ⟨_, hp⟩ | ⟨_, hp⟩ := update_request hj
    · cases hp
      cases ho
    · exact hk.minted j p operationId hp ho
  distinct := by
    intro j j' p p' operationId hj hj' ho ho'
    obtain ⟨_, hp⟩ | ⟨_, hp⟩ := update_request hj
    · cases hp
      cases ho
    · obtain ⟨_, hp'⟩ | ⟨_, hp'⟩ := update_request hj'
      · cases hp'
        cases ho'
      · exact hk.distinct j j' p p' operationId hp hp' ho ho'
  unused := by
    intro j p operationId hj hf ho
    obtain ⟨_, hp⟩ | ⟨_, hp⟩ := update_request hj
    · cases hp
      cases ho
    · exact hk.unused j p operationId hp hf ho
  keys := hk.keys

theorem live_congr (h : ∀ operationId, failed w' operationId = failed w operationId)
    (sent : List SentRefund) : live w' endToEndId sent = live w endToEndId sent := by
  induction sent with
  | nil => rfl
  | cons refund sent ih => simp only [live, h, ih]

/-- A call gets its operation: an id that no key and no other call stands under. -/
theorem kept_newId {i : Nat} {p : Request} {id : String} (hk : Kept original endToEndId b g)
    (hi : g i = some (some p)) (hstage : p.stage = .fresh) (hnew : id ∉ b.world.minted)
    (hb : b'.world = { b.world with minted := id :: b.world.minted }) (hsent : b'.sent = b.sent) :
    Kept original endToEndId b'
      (Function.update g i (some (some { p with operationId := some id }))) where
  fits := by
    have hlive : live b'.world endToEndId b.sent = live b.world endToEndId b.sent :=
      live_congr (by rw [hb]; exact fun _ => rfl) b.sent
    have hsame : onWay endToEndId (some (some { p with operationId := some id })) =
        onWay endToEndId (g i) := by
      obtain ⟨asked, operationId, t, stage⟩ := p
      have hfresh : stage = .fresh := hstage
      subst hfresh
      cases t <;> rw [hi] <;> rfl
    rw [onWay_update, hsent, hlive, hsame, Function.update_eq_self]
    exact hk.fits
  received := by
    rw [hb]
    exact ⟨hk.received.stored, hk.received.unique⟩
  sent := by rw [hsent]; exact hk.sent
  held := by
    intro j u a hj ha
    obtain ⟨_, hu⟩ | ⟨_, hu⟩ := update_request hj
    · cases hu
      rw [hstage] at ha
      cases ha
    · exact hk.held j u a hu ha
  asked := by
    intro j u t hj ht
    obtain ⟨_, hu⟩ | ⟨_, hu⟩ := update_request hj
    · cases hu
      exact hk.asked i p t hi ht
    · exact hk.asked j u t hu ht
  minted := by
    intro j u operationId hj ho
    rw [hb]
    obtain ⟨_, hu⟩ | ⟨_, hu⟩ := update_request hj
    · cases hu
      cases ho
      exact List.mem_cons_self
    · exact List.mem_cons_of_mem _ (hk.minted j u operationId hu ho)
  distinct := by
    intro j j' u u' operationId hj hj' ho ho'
    obtain ⟨rfl, hu⟩ | ⟨_, hu⟩ := update_request hj <;>
      obtain ⟨rfl, hu'⟩ | ⟨_, hu'⟩ := update_request hj'
    · rfl
    · cases hu
      cases ho
      exact absurd (hk.minted j' u' id hu' ho') hnew
    · cases hu'
      cases ho'
      exact absurd (hk.minted j u id hu ho) hnew
    · exact hk.distinct j j' u u' operationId hu hu' ho ho'
  unused := by
    intro j u operationId hj hf ho
    unfold FreeKey
    rw [hb]
    obtain ⟨_, hu⟩ | ⟨_, hu⟩ := update_request hj
    · cases hu
      cases ho
      exact hk.keys id hnew
    · exact hk.unused j u operationId hu hf ho
  keys := by
    intro operationId hn
    rw [hb] at hn
    unfold FreeKey
    rw [hb]
    exact hk.keys operationId fun h => hn (List.mem_cons_of_mem _ h)

/-- A call goes on under its operation. Only the hold of that operation may be
placed on the way. -/
theorem Kept.advance {i : Nat} {p p' : Request} (hk : Kept original endToEndId b g)
    (hi : g i = some (some p)) (hoperation : p'.operationId = p.operationId)
    (hstage : p'.stage = .fresh → p.stage = .fresh) (hl : Later b.world b'.world)
    (hr : Received original endToEndId b'.world)
    (hfits : Fits (Function.update (fun j => onWay endToEndId (g j)) i (onWay endToEndId (some (some p'))))
      (live b'.world endToEndId b'.sent) original.amountCents)
    (hsent : ∀ refund ∈ b'.sent, 0 < refund.amountCents)
    (hheld : ∀ amountCents, p'.stage = .held amountCents → 0 < amountCents)
    (hasked : ∀ t, p'.original = some t → t.endToEndId = some endToEndId → p'.asked ≠ some 0)
    (hkeys : ∀ operationId, p'.stage = .fresh ∨ p.operationId ≠ some operationId →
      FreeKey b.world operationId → FreeKey b'.world operationId) :
    Kept original endToEndId b' (Function.update g i (some (some p'))) where
  fits := by
    rw [onWay_update]
    exact hfits
  received := hr
  sent := hsent
  held := by
    intro j u a hj ha
    obtain ⟨_, hu⟩ | ⟨_, hu⟩ := update_request hj
    · cases hu
      exact hheld a ha
    · exact hk.held j u a hu ha
  asked := by
    intro j u t hj ht
    obtain ⟨_, hu⟩ | ⟨_, hu⟩ := update_request hj
    · cases hu
      exact hasked t ht
    · exact hk.asked j u t hu ht
  minted := by
    intro j u id hj ho
    obtain ⟨_, hu⟩ | ⟨_, hu⟩ := update_request hj
    · cases hu
      exact hl.minted _ (hk.minted i p id hi (hoperation ▸ ho))
    · exact hl.minted _ (hk.minted j u id hu ho)
  distinct := by
    intro j j' u u' id hj hj' ho ho'
    obtain ⟨rfl, hu⟩ | ⟨_, hu⟩ := update_request hj <;>
      obtain ⟨rfl, hu'⟩ | ⟨_, hu'⟩ := update_request hj'
    · rfl
    · cases hu
      exact hk.distinct j j' p u' id hi hu' (hoperation ▸ ho) ho'
    · cases hu'
      exact hk.distinct j j' u p id hu hi ho (hoperation ▸ ho')
    · exact hk.distinct j j' u u' id hu hu' ho ho'
  unused := by
    intro j u id hj hf ho
    obtain ⟨_, hu⟩ | ⟨hji, hu⟩ := update_request hj
    · cases hu
      exact hkeys id (.inl hf) (hk.unused i p id hi (hstage hf) (hoperation ▸ ho))
    · exact hkeys id (.inr fun h => hji (hk.distinct j i u p id hu hi ho h)) (hk.unused j u id hu hf ho)
  keys := by
    intro id hn
    have hold : id ∉ b.world.minted := fun h => hn (hl.minted _ h)
    exact hkeys id (.inr fun h => hold (hk.minted i p id hi h)) (hk.keys id hold)

theorem holdKey_injective {a c : String} (h : holdKey a = holdKey c) : a = c := by
  simpa [holdKey] using h

theorem amountOf_asked {asked : Option Int} {t : TransactionRecord} {cents : Int}
    (hzero : asked ≠ some 0) (h : asked = some cents) : amountOf asked t = cents := by
  subst h
  have hne : cents ≠ 0 := fun h => hzero (by rw [h])
  simp [amountOf, refundAmount, hne]

/-- A call reads its original. Where the stored counter counts the other refunds,
the check sees to it that the amount leaves room for them. -/
theorem kept_read {i : Nat} {p : Request} {found : Option TransactionRecord}
    (hk : Kept original endToEndId b g) (hi : g i = some (some p)) (hfresh : p.stage = .fresh)
    (hamount : ∀ t, found = some t → t.endToEndId = some endToEndId →
      t.amountCents = original.amountCents)
    (hasked : ∀ t, found = some t → t.endToEndId = some endToEndId → p.asked ≠ some 0)
    (hcounted : ∀ t, found = some t → t.endToEndId = some endToEndId →
      (∀ L : Finset Nat, i ∉ L → ∑ j ∈ L, onWay endToEndId (g j) + live b.world endToEndId b.sent ≤
        t.refundedAmountCents) ∨
      ∀ L : Finset Nat, i ∉ L → amountOf p.asked t + (∑ j ∈ L, onWay endToEndId (g j) +
        live b.world endToEndId b.sent) ≤ t.amountCents)
    (hb : b'.world = b.world) (hsent : b'.sent = b.sent) :
    Kept original endToEndId b' (Function.update g i (some (some { p with original := found }))) := by
  have hnothing : Fits (Function.update (fun j => onWay endToEndId (g j)) i 0)
      (live b.world endToEndId b.sent) original.amountCents := by
    have hnonneg := hk.nonneg i
    exact hk.fits.spend (by omega)
  refine hk.advance hi rfl (fun _ => hfresh) (.of_eq hb) (hb ▸ hk.received) ?_ (by rw [hsent]; exact hk.sent)
    (fun a ha => hk.held i p a hi ha) hasked (fun _ _ hfree => by rwa [hb])
  rw [hb, hsent]
  obtain ⟨asked, operationId, before, stage⟩ := p
  have hstage : stage = .fresh := hfresh
  subst hstage
  cases found with
  | none => exact hnothing
  | some t =>
    change Fits (Function.update _ i (if t.endToEndId = some endToEndId ∧ Draws asked t then
      amountOf asked t else 0)) _ _
    split
    · next hdraws =>
      obtain ⟨hend, _, hcheck⟩ := hdraws
      have htotal := hamount t rfl hend
      refine hk.fits.take fun L hL => ?_
      obtain hroom | hroom := hcounted t rfl hend
      · have hL := hroom L hL
        omega
      · have hL := hroom L hL
        dsimp only at hL
        omega
    · exact hnothing

/-- A call takes its hold, for an amount that passed the check. -/
theorem kept_hold {i : Nat} {p : Request} {t : TransactionRecord} {operationId : String}
    {ledger : LedgerStore} (hk : Kept original endToEndId b g) (hi : g i = some (some p))
    (hfresh : p.stage = .fresh) (hop : p.operationId = some operationId) (ht : p.original = some t)
    (hdraws : Draws p.asked t)
    (hkeys : ∀ k, k ≠ holdKey operationId → ledger.byIdempotencyKey.get k =
      b.world.ledger.byIdempotencyKey.get k)
    (hb : b'.world = { b.world with ledger }) (hsent : b'.sent = b.sent) :
    Kept original endToEndId b' (Function.update g i
      (some (some { p with stage := .held (amountOf p.asked t) }))) := by
  have hl : Later b.world b'.world := by
    rw [hb]
    exact ⟨fun _ h => h, fun _ h => h⟩
  have hshare : onWay endToEndId (some (some { p with stage := .held (amountOf p.asked t) })) =
      onWay endToEndId (g i) := by
    obtain ⟨asked, id, before, stage⟩ := p
    have hstage : stage = .fresh := hfresh
    have hbefore : before = some t := ht
    subst hstage hbefore
    have hd : Draws asked t := hdraws
    rw [hi]
    simp [onWay, hd]
  refine hk.advance hi rfl (fun h => by cases h) hl
    (by rw [hb]; exact ⟨hk.received.stored, hk.received.unique⟩) ?_ (by rw [hsent]; exact hk.sent)
    (fun a ha => by cases ha; exact hdraws.1) (fun u hu => hk.asked i p u hi hu) (fun id hid hfree => ?_)
  · rw [hshare, Function.update_eq_self]
    exact hk.fits.mono (fun _ => Int.le_refl _) (by rw [hsent]; exact live_le hl.failed hk.sent)
  · obtain h | hne := hid
    · cases h
    · unfold FreeKey
      rw [hb]
      exact (hkeys _ fun h => hne (by rw [holdKey_injective h]; exact hop)).trans hfree

/-- What a reply of the provider adds to the live refunds. -/
theorem live_recorded {request : RefundRequest} {r : Except Thrown PixRefund}
    (hpos : 0 < request.amountCents) :
    live w endToEndId (recorded (.providerRefund request) r b.sent) ≤ live w endToEndId b.sent +
      if request.originalEndToEndId = endToEndId then request.amountCents else 0 := by
  have hnonneg : (0 : Int) ≤ if request.originalEndToEndId = endToEndId then request.amountCents else 0 := by
    split <;> omega
  have hcons : live w endToEndId (⟨request.idempotencyKey, request.originalEndToEndId,
      request.amountCents⟩ :: b.sent) ≤ live w endToEndId b.sent +
        if request.originalEndToEndId = endToEndId then request.amountCents else 0 := by
    rw [live]
    by_cases he : request.originalEndToEndId = endToEndId
    · simp only [he, true_and, if_true]
      split <;> omega
    · simp [he]
  match r with
  | .ok _ => exact hcons
  | .error (.outcomeUnknown _) => exact hcons
  | .error (.baas _) | .error (.failure _) =>
    simp only [recorded]
    omega

theorem kept_refund {i : Nat} {p : Request} {t : TransactionRecord} {request : RefundRequest}
    {r : Except Thrown PixRefund} (hk : Kept original endToEndId b g) (hi : g i = some (some p))
    (hstage : p.stage = .held request.amountCents) (ht : p.original = some t)
    (hend : t.endToEndId = some request.originalEndToEndId) (hb : b'.world = b.world)
    (hsent : b'.sent = recorded (.providerRefund request) r b.sent) :
    Kept original endToEndId b' (Function.update g i (some (some { p with stage := .past }))) := by
  have hpos := hk.held i p _ hi hstage
  refine hk.advance hi rfl (fun h => by cases h) (.of_eq hb) (hb ▸ hk.received) ?_ ?_
    (fun a ha => by cases ha) (fun u hu => hk.asked i p u hi hu) (fun _ _ hfree => by rwa [hb])
  · have hzero : onWay endToEndId (some (some { p with stage := .past })) = 0 := by
      obtain ⟨asked, id, u, stage⟩ := p
      cases u <;> rfl
    have hshare : onWay endToEndId (g i) =
        if request.originalEndToEndId = endToEndId then request.amountCents else 0 := by
      obtain ⟨asked, id, u, stage⟩ := p
      have hu : u = some t := ht
      have hs : stage = .held request.amountCents := hstage
      subst hu hs
      simp [hi, onWay, hend]
    rw [hzero, hb, hsent]
    refine hk.fits.spend ?_
    rw [hshare]
    exact live_recorded hpos
  · rw [hsent]
    match r with
    | .ok _ | .error (.outcomeUnknown _) =>
      intro refund hm
      obtain rfl | hm := List.mem_cons.mp hm
      · exact hpos
      · exact hk.sent refund hm
    | .error (.baas _) | .error (.failure _) => exact hk.sent

/-- A step that changes neither the use of a hold key nor what was sent. -/
theorem kept_plain {i : Nat} {h : History} {r : Except Thrown (Answer q)}
    (hk : Kept original endToEndId b g) (hi : g i = some h) (henv : booksEnv b q r b')
    (hr : Received original endToEndId b'.world) (hsent : recorded q r b.sent = b.sent)
    (hkeys : ∀ command, q = .ledger command → ∀ operationId, commandKey command ≠ holdKey operationId) :
    Kept original endToEndId b' (Function.update g i (some h)) := by
  refine hk.quiet hi (later_of_env henv.1) hr (henv.2.trans hsent) fun operationId hfree => ?_
  exact (env_keys henv.1 fun command hq h => hkeys command hq operationId h.symm).trans hfree

theorem voidKey_ne (a c : String) : voidKey a ≠ holdKey c := by
  intro h
  unfold voidKey holdKey at h
  have hlist := congrArg String.toList h
  simp at hlist

theorem kept_ledger {i : Nat} {p : Request} {command : LedgerCommand}
    {r : Except Thrown PostTransactionResult} (hk : Kept original endToEndId b g)
    (hi : g i = some (some p)) (hguar : guar (some p) (.ledger command))
    (hr : Received original endToEndId b'.world) (henv : booksEnv b (.ledger command) r b') :
    Kept original endToEndId b' (Function.update g i (some (next (some p) (.ledger command) r))) := by
  rcases hguar with ⟨operationId, t, availableId, externalRef, hfresh, hop, ht, hcheck, rfl⟩ |
    ⟨hold, operationId, rfl⟩
  · have hfree : FreeKey b.world operationId := hk.unused i p operationId hi hfresh hop
    have hsame : ∀ e : Thrown, r = .error e → b'.world = b.world →
        Kept original endToEndId b' (Function.update g i (some (next (some p) (.ledger (.authorizeOut
          availableId (amountOf p.asked t) (holdKey operationId) externalRef)) r))) := by
      rintro e rfl hw
      exact hk.quiet hi (.of_eq hw) hr henv.2 (by rw [hw]; exact fun _ h => h)
    obtain ⟨⟨message, rfl⟩, hw⟩ | ⟨mint, _, hreply, hw⟩ := env_ledger_command.mp henv.1
    · exact hsame _ rfl hw
    · cases hp : (LedgerCommand.authorizeOut availableId (amountOf p.asked t)
          (holdKey operationId) externalRef).perform mint b.world.ledger with
      | mk a ledger =>
        rw [hp] at hreply hw
        cases a with
        | error e =>
          obtain ⟨_, rfl⟩ | ⟨_, _, h, _⟩ | ⟨_, _, _, _, h, _⟩ := authorizeOut_cases mint _ _ _ _ _ hp
          · exact hsame e hreply hw
          · cases h
          · cases h
        | ok a =>
          subst hreply
          have hpos := authorizeOut_positive hfree (congrArg Prod.fst hp)
          refine kept_hold hk hi hfresh hop ht ⟨hpos, hcheck⟩ (fun k hk => ?_) hw henv.2
          have hks := perform_keys mint b.world.ledger (.authorizeOut availableId
            (amountOf p.asked t) (holdKey operationId) externalRef) hk
          rwa [hp] at hks
  · refine kept_plain hk hi henv hr rfl fun command hq other => ?_
    cases hq
    exact voidKey_ne operationId other

/-- A read of the original, by its id or by its end-to-end id. -/
theorem kept_finds {i : Nat} {p : Request} {s : Refunds} {k : Except Thrown (Answer q) → Flow Unit}
    {found : Option TransactionRecord} (hk : Kept original endToEndId s.world s.histories)
    (hi : s.threads i = some (some p, .call q k)) (hfresh : p.stage = .fresh)
    (hok : Counted original endToEndId s i) (hfound : found = finds q s.world.world)
    (hstored : ∀ t, found = some t → s.world.world.transactions.get t.id = some t)
    (hb : b'.world = s.world.world) (hsent : b'.sent = s.world.sent) :
    Kept original endToEndId b'
      (Function.update s.histories i (some (some { p with original := found }))) := by
  subst hfound
  exact kept_read hk (by simp [Pool.histories, hi]) hfresh
    (fun t ht he => hk.received.amount (hstored t ht) he) (fun t ht he => hok.asked p q k t hi ht he)
    (fun t ht he => hok.counted p q k t hi ht he) hb hsent

theorem refunds_keeps :
    (refunds (Counted original endToEndId)).Keeps refunding (Kept original endToEndId) where
  next := rfl
  start := by
    rintro h f (⟨connectionId, accountId, input, rfl, rfl⟩ | ⟨rfl, hf⟩)
    · exact refundCall_follows connectionId accountId input
    · exact Prog.follows_of_within hf (fun q hq => ⟨hq, fun r => rfl⟩) fun _ => trivial
  spawn := by
    rintro b g i h f hk hfree (⟨connectionId, accountId, input, rfl, rfl⟩ | ⟨rfl, _⟩)
    · exact kept_spawn hk hfree
    · refine hk.mono (.of_eq rfl) hk.received rfl (fun _ h => h) fun j p hj => ?_
      obtain ⟨_, h⟩ | ⟨_, hg⟩ := update_request hj
      · cases h
      · exact hg
  drop := by
    intro b g i hk
    refine hk.mono (.of_eq rfl) hk.received rfl (fun _ h => h) fun j p hj => ?_
    obtain ⟨_, h⟩ | ⟨_, hg⟩ := update_request hj
    · cases h
    · exact hg
  call := by
    intro s i h q k r b' hk hi hok hguar henv
    refine ⟨trivial, ?_⟩
    have hh : s.histories i = some h := by simp [Pool.histories, hi]
    have hr : Received original endToEndId b'.world :=
      hk.received.env (fun c hc => by subst hc; exact hok.keyed h c k hi) henv.1
    cases h with
    | none =>
      refine kept_plain hk hh henv hr ?_ fun command hq operationId => ?_
      · cases q <;> first | rfl | exact absurd hguar id
      · subst hq
        exact hguar operationId
    | some p =>
      have hfixed : Call.free q = true → Kept original endToEndId b'
          (Function.update s.histories i (some (next (some p) q r))) := by
        intro hq
        rw [show next (some p) q r = some p from (free_allowed hq).2 r]
        refine kept_plain hk hh henv hr ?_ fun command hc => ?_
        · cases q <;> first | rfl | simp [Call.free] at hq
        · subst hc
          simp [Call.free] at hq
      cases q with
      | newId kind =>
        cases kind with
        | operation =>
          obtain ⟨id, rfl, hnew, hw⟩ := env_newId henv.1
          exact kept_newId hk hh hguar.1 hnew hw henv.2
        | _ => exact hfixed rfl
      | transactionFindById id =>
        have hfresh : p.stage = .fresh := hguar
        obtain ⟨hw, rfl | ⟨message, rfl⟩⟩ := env_read (fun _ => rfl) henv.1
        · exact kept_finds hk hi hfresh hok rfl (fun t ht => by rw [Rows.key_of_get ht]; exact ht) hw henv.2
        · exact kept_plain hk hh henv hr rfl fun command hc => by cases hc
      | transactionFindByEndToEndId e2e =>
        have hfresh : p.stage = .fresh := hguar
        obtain ⟨hw, rfl | ⟨message, rfl⟩⟩ := env_read (fun _ => rfl) henv.1
        · exact kept_finds hk hi hfresh hok rfl (fun t ht => (Rows.search_some ht).2) hw henv.2
        · exact kept_plain hk hh henv hr rfl fun command hc => by cases hc
      | ledger command => exact kept_ledger hk hh hguar hr henv
      | providerRefund request =>
        obtain ⟨hstage, t, ht, hend, _⟩ := hguar
        have hw : b'.world = s.world.world := by
          obtain ⟨_, _, h⟩ | ⟨c, _, hc⟩ := env_iff.mp henv.1
          · exact h
          · unfold respond at hc
            simp only [World.refund, reply, refuse] at hc
            split at hc <;> simp only [Option.some.injEq, Prod.mk.injEq] at hc <;> exact hc.2.symm
        exact kept_refund hk hh hstage ht hend hw henv.2
      | _ => exact hfixed rfl

/-- The refunds of the original that are live come to no more than its amount,
and no refund of it that asks for zero or less is about to go out. -/
def WithinOriginal (original : TransactionRecord) (endToEndId : String) (s : Refunds) : Prop :=
  live s.world.world endToEndId s.world.sent ≤ original.amountCents ∧
    ∀ i p request k, s.threads i = some (some p, .call (.providerRefund request) k) →
      request.originalEndToEndId = endToEndId → ∀ cents, p.asked = some cents → 0 < cents

/-- A received Pix is stored, alone under its end-to-end id. Nothing was refunded,
and no operation yet to come has its hold key taken. -/
structure Fresh (original : TransactionRecord) (endToEndId : String) (s : Refunds) : Prop where
  idle : s.threads = fun _ => none
  sent : s.world.sent = []
  stored : s.world.world.transactions.get original.id = some original
  credit : original.direction = .CREDIT
  amount : 0 ≤ original.amountCents
  endToEnd : original.endToEndId = some endToEndId
  unique : ∀ id t, s.world.world.transactions.get id = some t → t.endToEndId = some endToEndId →
    id = original.id
  keys : ∀ operationId, operationId ∉ s.world.world.minted → FreeKey s.world.world operationId

/-- In every run in which each call finds the other refunds counted, or room for
its amount, the refunds stay within the original. -/
theorem refunds_within_original {s₀ s : Refunds} (hfresh : Fresh original endToEndId s₀)
    (hs : (refunds (Counted original endToEndId)).Reaches s₀ s) :
    WithinOriginal original endToEndId s := by
  have hnone : ∀ j, s₀.histories j = none := fun j => by simp [Pool.histories, hfresh.idle]
  have hobeys : System.Obeys refunding s₀ := fun i h f hi => by simp [hfresh.idle] at hi
  have hstart : Kept original endToEndId s₀.world s₀.histories :=
    { fits := fun L => by simpa [hnone, onWay, hfresh.sent, live] using hfresh.amount
      received := ⟨⟨original, hfresh.stored, hfresh.endToEnd, rfl⟩, hfresh.unique⟩
      sent := by simp [hfresh.sent]
      held := fun j p a hj => by simp [hnone] at hj
      asked := fun j p t hj => by simp [hnone] at hj
      minted := fun j p id hj => by simp [hnone] at hj
      distinct := fun i j p p' id hi => by simp [hnone] at hi
      unused := fun j p id hj => by simp [hnone] at hj
      keys := hfresh.keys }
  obtain ⟨hobeys, hk⟩ := refunds_keeps.reaches hs hobeys hstart
  refine ⟨hk.fits.spent_le, fun i p request k hi hend cents hc => ?_⟩
  have hh : s.histories i = some (some p) := by simp [Pool.histories, hi]
  have hg : guar (some p) (.providerRefund request) := (hobeys i _ _ hi).1
  obtain ⟨hstage, t, ht, htend, hamount⟩ := hg
  have hasked : p.asked ≠ some 0 := hk.asked i p t hh ht (hend ▸ htend)
  have hpos := hk.held i p _ hh hstage
  rwa [hamount, amountOf_asked hasked hc] at hpos

/-- A key that another tag starts is no hold key of a refund. -/
theorem ne_holdKey {tag : String} (id : String) (htag : tag.toList.take 5 ≠ "pix-r".toList)
    (hlen : 5 ≤ tag.toList.length) (operationId : String) : tag ++ id ≠ holdKey operationId := by
  intro h
  have hlist := congrArg (fun k => k.toList.take 5) h
  simp only [holdKey, String.toList_append] at hlist
  rw [List.take_append_of_le_length hlen, List.take_append_of_le_length (by decide)] at hlist
  exact htag hlist

/-- The application of webhook events is among the programs that refund nothing. -/
theorem apply_foreign (eventId : String) : (Webhooks.Apply.apply eventId).Within Foreign := by
  refine Prog.meets_mono (fun _ _ h => h) (fun q hq => ?_) (fun _ h => h) (apply_applying eventId)
  cases q with
  | ledger command =>
    cases command with
    | settleOut hold key =>
      obtain ⟨id, rfl⟩ := hq
      exact ne_holdKey id (by decide) (by decide)
    | voidOut hold key =>
      obtain ⟨id, rfl⟩ := hq
      exact ne_holdKey id (by decide) (by decide)
    | creditIn availableId amountCents key externalRef =>
      obtain ⟨id, rfl⟩ := hq
      exact ne_holdKey id (by decide) (by decide)
    | _ => exact absurd hq id
  | providerRefund request => exact absurd hq id
  | _ => trivial

section Sample

/-- The funded ledger with 100.00 more on the customer's account. -/
def richLedger : LedgerStore :=
  ((LedgerCommand.creditIn "lac_1" 10000 "pix-in:ptx_9" none).perform (sampleMint "ltx_9") fundedLedger).2

/-- A received Pix of 100.00, settled at 1000. -/
def receivedPix : TransactionRecord :=
  { sentTransfer .SETTLED with
    id := "txn_0", type := .PIX_IN, direction := .CREDIT, amountCents := 10000
    providerTransactionId := some "ptx_0", idempotencyKey := none, operationId := none
    settledAt := some 1000, ledgerPendingTransactionId := none, endToEndId := some "E0" }

def receivedWorld : World :=
  { sampleWorld richLedger with transactions := Rows.empty.put receivedPix }

def receivedPool : Refunds := ⟨⟨receivedWorld, []⟩, fun _ => none⟩

theorem receivedPool_fresh : Fresh receivedPix "E0" receivedPool := by
  refine ⟨rfl, rfl, rfl, rfl, by decide, rfl, fun id t ht _ => ?_, fun operationId _ => ?_⟩
  · by_contra hid
    have hnone : receivedPool.world.world.transactions.get id = none :=
      Rows.get_put_ne _ receivedPix hid
    rw [hnone] at ht
    cases ht
  · have hfirst : holdKey operationId ≠ "pix-in:" ++ "ptx_0" :=
      (ne_holdKey "ptx_0" (by decide) (by decide) operationId).symm
    have hsecond : holdKey operationId ≠ "pix-in:" ++ "ptx_9" :=
      (ne_holdKey "ptx_9" (by decide) (by decide) operationId).symm
    have hfunded : fundedLedger.byIdempotencyKey.get (holdKey operationId) = none :=
      perform_keys _ _ (.creditIn "lac_1" 10000 "pix-in:ptx_0" none) hfirst
    exact (perform_keys _ _ (.creditIn "lac_1" 10000 "pix-in:ptx_9" none) hsecond).trans hfunded

def half : RefundInput := ⟨some "txn_0", "E0", some 6000, none⟩

def bothRefunding : Refunds :=
  ⟨⟨receivedWorld, []⟩, Function.update (Function.update receivedPool.threads 0
    (some (some (asking half), refundCall "con_1" "acc_1" half))) 1
    (some (some (asking half), refundCall "con_1" "acc_1" half))⟩

def acceptedRefund (id : String) : Choice := { refunded := .accepted ⟨id, none, .PROCESSING, none⟩ }

/-- Two refunds of 60.00, one after the other, each against a counter at zero. -/
def twoRefunds : List (Nat × Choice) :=
  [(0, { ulid := "1" }), (0, {}), (0, {}), (0, { instant := 2000 }), (0, {}),
    (0, { mint := sampleMint "ltx_1" }), (0, acceptedRefund "rfd_1"),
    (1, { ulid := "2" }), (1, {}), (1, {}), (1, { instant := 2000 }), (1, {}),
    (1, { mint := sampleMint "ltx_2" }), (1, acceptedRefund "rfd_2")]

def booksAnswer (c : Choice) (q : Call) (b : Books) : Option (Except Thrown (Answer q) × Books) :=
  match answer c q b.world with
  | some (r, w) => some (r, ⟨w, recorded q r b.sent⟩)
  | none => none

theorem booksEnv_of_answer {c : Choice} {r : Except Thrown (Answer q)}
    (h : booksAnswer c q b = some (r, b')) : booksEnv b q r b' := by
  unfold booksAnswer at h
  cases ha : answer c q b.world with
  | none => simp [ha] at h
  | some a =>
    simp only [ha, Option.some.injEq, Prod.mk.injEq] at h
    rw [← h.1, ← h.2]
    exact ⟨⟨c, ha⟩, rfl⟩

/-- The condition on the next move of the only call under way. -/
def calm (h : History) (q : Call) (b : Books) : Bool :=
  (match q with
    | .transactionApplyStatusChange _ => false
    | _ => true) &&
  (finds q b.world).all fun t => h.all fun p => p.asked != some 0 &&
    (decide (live b.world "E0" b.sent ≤ t.refundedAmountCents) ||
      decide (amountOf p.asked t + live b.world "E0" b.sent ≤ t.amountCents))

theorem calm_counted {h : History} {k : Except Thrown (Answer q) → Flow Unit} (hcalm : calm h q b = true) :
    Counted receivedPix "E0" ⟨b, Function.update receivedPool.threads 0 (some (h, .call q k))⟩ 0 := by
  obtain ⟨hplain, hroom⟩ := Bool.and_eq_true_iff.mp hcalm
  have hsum : ∀ L : Finset Nat, 0 ∉ L → ∑ j ∈ L, onWay "E0" ((⟨b, Function.update receivedPool.threads 0
      (some (h, .call q k))⟩ : Refunds).histories j) = 0 := by
    refine fun L hL => Finset.sum_eq_zero fun j hj => ?_
    rw [Pool.histories_update, Function.update_of_ne (fun heq => hL (by rwa [← heq]))]
    rfl
  have hthread : ∀ {h' q' k'}, Function.update receivedPool.threads 0 (some (h, .call q k)) 0 =
      some (h', .call q' k') → h' = h ∧ q' = q := by
    intro h' q' k' heq
    rw [Function.update_self, Option.some.injEq, Prod.mk.injEq, Prog.call.injEq] at heq
    exact ⟨heq.1.symm, heq.2.1.symm⟩
  have hfound : ∀ {p t}, h = some p → finds q b.world = some t → p.asked ≠ some 0 ∧
      (live b.world "E0" b.sent ≤ t.refundedAmountCents ∨
        amountOf p.asked t + live b.world "E0" b.sent ≤ t.amountCents) := by
    intro p t hp ht
    subst hp
    simpa [ht] using hroom
  refine ⟨fun p q' _ t hi ht _ => ?_, fun p q' _ t hi ht _ => ?_, fun h' c _ hi => ?_⟩
  · obtain ⟨hp, rfl⟩ := hthread hi
    exact (hfound hp.symm ht).1
  · obtain ⟨hp, rfl⟩ := hthread hi
    obtain hcounted | hfits := (hfound hp.symm ht).2
    · exact .inl fun L hL => by rw [hsum L hL, zero_add]; exact hcounted
    · exact .inr fun L hL => by rw [hsum L hL, zero_add]; exact hfits
  · obtain ⟨_, rfl⟩ := hthread hi
    cases hplain

/-- The moves of a call that has the pool to itself. -/
def solo : List Choice → Books → History → Flow Unit → Option (Books × History × Flow Unit)
  | [], b, h, f => some (b, h, f)
  | c :: choices, b, h, .call q k =>
    if calm h q b then
      match booksAnswer c q b with
      | some (r, b') => solo choices b' (next h q r) (k r)
      | none => none
    else none
  | _, _, _, _ => none

theorem reaches_of_solo {choices : List Choice} {h h' : History} {f f' : Flow Unit}
    (hsolo : solo choices b h f = some (b', h', f')) :
    (refunds (Counted receivedPix "E0")).Reaches ⟨b, Function.update receivedPool.threads 0 (some (h, f))⟩
      ⟨b', Function.update receivedPool.threads 0 (some (h', f'))⟩ := by
  induction choices generalizing b h f with
  | nil =>
    rw [solo, Option.some.injEq, Prod.mk.injEq, Prod.mk.injEq] at hsolo
    obtain ⟨rfl, rfl, rfl⟩ := hsolo
    exact .refl
  | cons c choices ih =>
    cases f with
    | pure a => cases hsolo
    | throw e => cases hsolo
    | call q k =>
      rw [solo] at hsolo
      split at hsolo
      · next hcalm =>
        split at hsolo
        · next r b₁ hanswer =>
          have hmove := System.Step.resume (S := refunds (Counted receivedPix "E0")) (k := k) 0
            (Function.update_self 0 _ receivedPool.threads) (calm_counted hcalm) (booksEnv_of_answer hanswer)
          rw [Function.update_idem] at hmove
          exact .head hmove (ih hsolo)
        · cases hsolo
      · cases hsolo

def asks (cents : Int) : RefundInput := ⟨some "txn_0", "E0", some cents, none⟩

theorem next_alone {s : Refunds} {g : Option (History × Flow Unit)}
    (hs : s.threads = Function.update receivedPool.threads 0 g) (cents : Int) :
    (refunds (Counted receivedPix "E0")).Reaches s ⟨s.world, Function.update receivedPool.threads 0
      (some (some (asking (asks cents)), refundCall "con_1" "acc_1" (asks cents)))⟩ := by
  have hdropped := System.Step.drop (S := refunds (Counted receivedPix "E0")) (s := s) 0
  rw [hs, Function.update_idem] at hdropped
  have hspawn := System.Step.spawn (S := refunds (Counted receivedPix "E0"))
    (s := ⟨s.world, Function.update receivedPool.threads 0 none⟩) 0 (by simp)
    (.inl ⟨"con_1", "acc_1", asks cents, rfl, rfl⟩)
  rw [Function.update_idem] at hspawn
  exact .head hdropped (.single hspawn)

/-- The books after a refund of 150.00, which the check refuses. -/
def refusedBooks : Books := ⟨{ receivedWorld with minted := ["opr_1"] }, []⟩

/-- The books after one of 60.00 beyond that. -/
def sixtyBooks : Books :=
  ⟨{ receivedWorld with
      minted := ["opr_2", "opr_1"]
      ledger := ((LedgerCommand.authorizeOut "lac_1" 6000 (holdKey "opr_2") (some "opr_2")).perform
        (sampleMint "ltx_1") richLedger).2 }, [⟨"opr_2", "E0", 6000⟩]⟩

def sending (ulid hold refund : String) : List Choice :=
  [{ ulid }, {}, {}, { instant := 2000 }, {}, { mint := sampleMint hold }, acceptedRefund refund]

/-- Three refunds in turn: one that the check refuses and two that come to the original. -/
theorem refunds_within_original_in_turn : ∃ s : Refunds,
    live s.world.world "E0" s.world.sent = 10000 ∧ WithinOriginal receivedPix "E0" s := by
  have hrefused : ∃ h f, solo [{ ulid := "1" }, {}, {}, { instant := 2000 }] ⟨receivedWorld, []⟩
      (some (asking (asks 15000))) (refundCall "con_1" "acc_1" (asks 15000)) = some (refusedBooks, h, f) :=
    ⟨_, _, rfl⟩
  have hsixty : ∃ h f, solo (sending "2" "ltx_1" "rfd_1") refusedBooks (some (asking (asks 6000)))
      (refundCall "con_1" "acc_1" (asks 6000)) = some (sixtyBooks, h, f) := ⟨_, _, rfl⟩
  have hforty : ∃ b h f, solo (sending "3" "ltx_2" "rfd_2") sixtyBooks (some (asking (asks 4000)))
      (refundCall "con_1" "acc_1" (asks 4000)) = some (b, h, f) ∧ live b.world "E0" b.sent = 10000 :=
    ⟨_, _, _, rfl, by decide⟩
  obtain ⟨_, _, hrefused⟩ := hrefused
  obtain ⟨_, _, hsixty⟩ := hsixty
  obtain ⟨b, h, f, hforty, hlive⟩ := hforty
  have hfirst := next_alone (s := receivedPool) (Function.update_eq_self 0 _).symm 15000
  exact ⟨_, hlive, refunds_within_original receivedPool_fresh (hfirst.trans ((reaches_of_solo hrefused).trans
    ((next_alone rfl 6000).trans ((reaches_of_solo hsixty).trans
      ((next_alone rfl 4000).trans (reaches_of_solo hforty))))))⟩

/-- Two refunds of 60.00, one after the other, each against a counter at zero. -/
theorem refunds_exceed_original :
    ¬ ∀ (original : TransactionRecord) (endToEndId : String) (s₀ s : Refunds), Fresh original endToEndId s₀ →
      (refunds fun _ _ => True).Reaches s₀ s → WithinOriginal original endToEndId s := by
  intro h
  have hstart : (refunds fun _ _ => True).Reaches receivedPool bothRefunding :=
    .head (.spawn 0 rfl (.inl ⟨_, _, _, rfl, rfl⟩)) (.single (.spawn 1 rfl (.inl ⟨_, _, _, rfl, rfl⟩)))
  have hscript : ∃ s, bothRefunding.script booksAnswer next twoRefunds = some s ∧
      live s.world.world "E0" s.world.sent = 12000 := ⟨_, rfl, by decide⟩
  obtain ⟨s, hs, hlive⟩ := hscript
  have hrun : (refunds fun _ _ => True).Reaches bothRefunding s :=
    System.reaches_of_script (fun _ _ _ _ _ => booksEnv_of_answer) (fun _ _ => trivial) hs
  have hwithin := (h receivedPix "E0" receivedPool s receivedPool_fresh (hstart.trans hrun)).1
  rw [hlive] at hwithin
  exact absurd hwithin (by decide)

end Sample

end BaasConnector.Pix.RefundRuns
