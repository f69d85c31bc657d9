import BaasConnector.Lib.Threads
import BaasConnector.Pix.HoldResolution
import BaasConnector.Worker.Ladder

namespace BaasConnector.Worker.Finality

open BaasConnector.Lib.Keyed hiding lookup
open BaasConnector.Lib.Effects BaasConnector.Taxonomy.Status BaasConnector.Taxonomy.Errors
open BaasConnector.Connector.Records BaasConnector.Connector.Calls BaasConnector.Connector.Database
open BaasConnector.Connector.Replies BaasConnector.Pix.OperationReconciler
open BaasConnector.Pix.HoldResolution BaasConnector.Worker.Ladder

/-- What the provider tells of the payment. A statement is read by the resolver,
and what it finds there counts as settled. -/
def told : (q : Call) → Except Thrown (Answer q) → Option TransactionStatus
  | .providerFindByIdempotencyKey .., .ok found => found.map (·.status)
  | .providerGet .., .ok found => some found.status
  | _, _ => none

/-- Where a resolver stands: before its first read, between a read that found the
operation stuck and its status write, there with what it was told or giving up,
or past any write. -/
inductive Phase
  | waiting | asking (told : Option TransactionStatus) | exhausting | spent
deriving DecidableEq, Repr

def Phase.next : Phase → (q : Call) → Except Thrown (Answer q) → Phase
  | .waiting, .operationFindById _, .ok (some operation) =>
    if operation.status.isStuck then .asking none else .spent
  | .waiting, .operationFindById _, _ => .spent
  | .asking _, .operationFindById _, .ok (some _) => .exhausting
  | .asking before, .operationUpdate u, _ => if u.status.isSome then .spent else .asking before
  | .asking before, q, r => .asking ((told q r).orElse fun _ => before)
  | .exhausting, .operationUpdate u, _ => if u.status.isSome then .spent else .exhausting
  | phase, _, _ => phase

def Phase.busy : Phase → Bool
  | .asking _ | .exhausting => true
  | _ => false

/-- The resolver was told that the payment failed, or gives up on it. -/
def Phase.fails : Phase → Bool
  | .asking (some status) => isFailed status
  | .exhausting => true
  | _ => false

/-- The calls that write neither an operation nor a transaction. -/
def Call.quiet : Call → Bool
  | .operationCreate _ | .operationUpdate _ | .transactionCreate _
  | .transactionApplyStatusChange _ => false
  | _ => true

/-- The quiet calls that no phase takes notice of. -/
def Call.plain : Call → Bool
  | .operationFindById _ | .providerFindByIdempotencyKey .. | .providerGet .. => false
  | q => Call.quiet q

def Call.writesStatus : Call → Bool
  | .operationUpdate u => u.status.isSome
  | .transactionApplyStatusChange _ => true
  | _ => false

def Phase.guar (operationId : String) : Phase → Call → Prop
  | .waiting, q => q = .operationFindById operationId
  | .asking before, .operationUpdate u => u.status = some .FAILED → Phase.fails (.asking before) = true
  | .asking before, .transactionApplyStatusChange c => ∀ status, before = some status → c.toStatus = status
  | .asking _, q => Call.quiet q = true
  | .exhausting, .operationUpdate _ => True
  | .exhausting, q => Call.plain q = true
  | .spent, q => Call.quiet q = true

def resolving (operationId : String) : Protocol Call Answer Thrown Phase where
  next := Phase.next
  rely _ _ _ := True
  guar := Phase.guar operationId

variable {operationId : String} {α : Type}

theorem asking_plain {before : Option TransactionStatus} {q : Call} (hq : Call.plain q = true) :
    Phase.guar operationId (.asking before) q ∧ ∀ r, Phase.next (.asking before) q r = .asking before := by
  cases q <;> simp_all [Call.plain, Call.quiet, Phase.guar, Phase.next, told]

theorem spent_next (q : Call) (r : Except Thrown (Answer q)) : Phase.next .spent q r = .spent := by
  cases q <;> rfl

theorem exhausting_next {q : Call} (hq : Call.quiet q = true) (r : Except Thrown (Answer q)) :
    Phase.next .exhausting q r = .exhausting := by
  cases q <;> first | rfl | simp [Call.quiet] at hq

/-- Ledger calls, notices and most reads leave a resolver where it is. -/
theorem asking_of_plain {before : Option TransactionStatus} {p : Flow α}
    (hp : p.Within fun q => Call.plain q = true) :
    p.Follows (resolving operationId) (fun s _ => s = .asking before) (.asking before) :=
  Prog.follows_of_within hp (fun _ hq => asking_plain hq) fun _ => rfl

theorem spent_of_quiet {p : Flow α} (hp : p.Within fun q => Call.quiet q = true) :
    p.Follows (resolving operationId) (fun _ _ => True) .spent :=
  Prog.follows_of_within hp (fun q hq => ⟨hq, spent_next q⟩) fun _ => trivial

/-- What a resolver was told agrees with what it goes on with. A payment that it
was not told of comes from the statement. -/
def Shown (s : Phase) : Option PixTransaction → Prop
  | some found => s = .asking (some found.status) ∨ s = .asking none ∧ found.status = .SETTLED
  | none => s = .asking none

def Lookup (s : Phase) : Except Thrown (Option PixTransaction) → Prop
  | .ok found => Shown s found
  | .error _ => True

theorem byIdempotencyKey_follows (bound : BoundProvider) (providerAccountId : String)
    (operation : OperationRecord) :
    (byIdempotencyKey bound providerAccountId operation).Follows (resolving operationId) Lookup
      (.asking none) := by
  unfold byIdempotencyKey
  split
  · refine Prog.follows_perform_attempt_bind.mpr ⟨rfl, fun r _ => ?_⟩
    match r with
    | .error e => exact rfl
    | .ok none => exact rfl
    | .ok (some found) => exact .inl rfl
  · exact rfl

theorem byEndToEndId_follows (bound : BoundProvider) (providerAccountId : String)
    (transaction : TransactionRecord) :
    (byEndToEndId bound providerAccountId transaction).Follows (resolving operationId) Lookup
      (.asking none) := by
  unfold byEndToEndId
  split
  · exact rfl
  · split
    · refine Prog.follows_perform_attempt_bind.mpr ⟨rfl, fun r _ => ?_⟩
      cases r with
      | error e => exact rfl
      | ok found => exact .inl rfl
    · exact rfl

theorem byStatementScan_follows (bound : BoundProvider) (providerAccountId : String)
    (transaction : TransactionRecord) :
    (byStatementScan bound providerAccountId transaction).Follows (resolving operationId) Lookup
      (.asking none) := by
  unfold byStatementScan
  split
  · refine Prog.follows_perform_attempt_bind.mpr ⟨rfl, fun r _ => ?_⟩
    cases r with
    | error e => exact rfl
    | ok lines =>
      dsimp only
      split
      · exact .inr ⟨rfl, rfl⟩
      · exact rfl
  · exact rfl

theorem lookup_follows (bound : BoundProvider) (providerAccountId : String)
    (operation : OperationRecord) (transaction : TransactionRecord) :
    (lookup bound providerAccountId operation transaction).Follows (resolving operationId) Lookup
      (.asking none) := by
  unfold lookup
  refine Prog.follows_bind.mpr (Prog.follows_mono (fun s r hs => ?_)
    (byIdempotencyKey_follows bound providerAccountId operation))
  match r with
  | .error e => trivial
  | .ok (some found) => exact hs
  | .ok none =>
    have hnone : s = .asking none := hs
    subst hnone
    refine Prog.follows_bind.mpr (Prog.follows_mono (fun s r hs => ?_)
      (byEndToEndId_follows bound providerAccountId transaction))
    match r with
    | .error e => trivial
    | .ok (some found) => exact hs
    | .ok none =>
      have hnone : s = .asking none := hs
      subst hnone
      exact byStatementScan_follows bound providerAccountId transaction

/-- A resolver that leaves the operation open has written no status and was told nothing. -/
def StillAsking (s : Phase) : Except Thrown ReconcileOutcome → Prop
  | .ok (.unresolved .not_stuck) => True
  | .ok (.unresolved _) => s = .asking none
  | _ => True

theorem operationStatus_failed {status : TransactionStatus} (h : operationStatus status = .FAILED) :
    isFailed status = true := by
  unfold operationStatus at h
  split at h
  · cases h
  · split at h
    · assumption
    · cases h

theorem applyOutcome_follows (operation : OperationRecord) (transaction : TransactionRecord)
    {found : PixTransaction} {s : Phase} (hs : Shown s (some found)) :
    (applyOutcome operation transaction found).Follows (resolving operationId) StillAsking s := by
  obtain ⟨before, rfl⟩ : ∃ before, s = .asking before := by
    obtain rfl | ⟨rfl, _⟩ := hs <;> exact ⟨_, rfl⟩
  have hagree : ∀ status, before = some status → found.status = status := by
    rintro status rfl
    obtain h | ⟨h, _⟩ := hs <;> cases h
    rfl
  have hfails : operationStatus found.status = .FAILED → Phase.fails (.asking before) = true := by
    intro hf
    have hstatus := operationStatus_failed hf
    obtain h | ⟨_, h⟩ := hs
    · cases h
      exact hstatus
    · rw [h] at hstatus
      cases hstatus
  have hhold : (resolveHold operation transaction found.status).Follows (resolving operationId)
      (fun s _ => s = .asking before) (.asking before) := by
    rw [resolveHold_eq]
    exact asking_of_plain (holdResolution_meets (fun _ => rfl) _ _ _)
  unfold applyOutcome recordOutcome
  refine Prog.follows_perform_bind.mpr ⟨rfl, fun now _ => ?_, fun _ _ => trivial⟩
  refine Prog.follows_bind.mpr (Prog.follows_mono (fun s r hs => ?_) hhold)
  subst hs
  cases r with
  | error e => trivial
  | ok posted =>
    refine Prog.follows_perform_bind.mpr ⟨hagree, fun change _ => ?_, fun _ _ => trivial⟩
    refine Prog.follows_perform_bind.mpr ⟨fun h => hfails (Option.some.inj h), fun _ _ => ?_,
      fun _ _ => trivial⟩
    refine Prog.follows_perform_bind.mpr ⟨rfl, fun _ _ => ?_, fun _ _ => trivial⟩
    cases change <;> trivial

theorem resolve_follows :
    (resolve operationId).Follows (resolving operationId) StillAsking .waiting := by
  unfold resolve
  refine Prog.follows_perform_bind.mpr ⟨rfl, fun stored _ => ?_, fun _ _ => trivial⟩
  cases stored with
  | none => trivial
  | some operation =>
    by_cases hst : operation.status.isStuck = true
    · have hnext : (resolving operationId).next .waiting (.operationFindById operationId)
          (.ok (some operation)) = .asking none := if_pos hst
      rw [hnext]
      simp only [hst, not_true_eq_false, if_false]
      refine Prog.follows_perform_bind.mpr ⟨rfl, fun found _ => ?_, fun _ _ => trivial⟩
      cases found with
      | none => trivial
      | some transaction =>
        refine Prog.follows_perform_bind.mpr ⟨rfl, fun account _ => ?_, fun _ _ => trivial⟩
        cases account.bind (·.providerAccountId) with
        | none => exact rfl
        | some providerAccountId =>
          refine Prog.follows_perform_bind.mpr ⟨rfl, fun bound _ => ?_, fun _ _ => trivial⟩
          refine Prog.follows_perform_bind.mpr ⟨nofun, fun _ _ => ?_, fun _ _ => trivial⟩
          refine Prog.follows_bind.mpr (Prog.follows_mono (fun s r hs => ?_)
            (lookup_follows bound providerAccountId operation transaction))
          match r with
          | .error e => trivial
          | .ok (some found) => exact applyOutcome_follows operation transaction hs
          | .ok none =>
            have hnone : s = .asking none := hs
            subst hnone
            split <;> exact rfl
    · simp only [hst]
      trivial

theorem openBreak_quiet (operation : OperationRecord) :
    (openBreak operation).Within fun q => Call.quiet q = true := by
  unfold openBreak
  refine Prog.meets_perform_bind.mpr ⟨rfl, fun now _ => ?_, fun _ _ => trivial⟩
  cases operation.accountId with
  | none => trivial
  | some accountId =>
    simp [Call.quiet]

theorem exhaust_follows :
    (exhaust operationId).Follows (resolving operationId) (fun _ _ => True) (.asking none) := by
  unfold exhaust
  refine Prog.follows_perform_bind.mpr ⟨rfl, fun stored _ => ?_, fun _ _ => trivial⟩
  cases stored with
  | none => trivial
  | some operation =>
    refine Prog.follows_perform_bind.mpr ⟨trivial, fun _ _ => ?_, fun _ _ => trivial⟩
    exact spent_of_quiet (openBreak_quiet operation)

theorem step_follows (k : Nat) :
    (step operationId k).Follows (resolving operationId) (fun _ _ => True) .waiting := by
  unfold step
  refine Prog.follows_bind.mpr (Prog.follows_mono (fun s r hs => ?_) resolve_follows)
  match r with
  | .error e => trivial
  | .ok (.resolved ..) => trivial
  | .ok (.unresolved .not_stuck) => trivial
  | .ok (.unresolved .no_lookup_capability) =>
    have hasking : s = .asking none := hs
    subst hasking
    exact exhaust_follows
  | .ok (.unresolved .not_found_at_provider) =>
    have hasking : s = .asking none := hs
    subst hasking
    rw [onResult_ok]
    cases unknownOutcomeLadderSeconds[k + 1]? with
    | none => exact exhaust_follows
    | some delaySeconds =>
      refine Prog.follows_perform_bind.mpr ⟨rfl, fun now _ => ?_, fun _ _ => trivial⟩
      refine Prog.follows_perform_bind.mpr ⟨nofun, fun _ _ => ?_, fun _ _ => trivial⟩
      exact Prog.follows_perform.mpr ⟨rfl, fun _ _ => trivial⟩

/-- A resolution on demand, by hand or for a sweep: its outcome is only reported. -/
def resolveOnce (operationId : String) : Flow Unit := do
  let _ ← resolve operationId

theorem resolveOnce_follows :
    (resolveOnce operationId).Follows (resolving operationId) (fun _ _ => True) .waiting := by
  unfold resolveOnce
  refine Prog.follows_bind.mpr (Prog.follows_mono (fun s r _ => ?_) resolve_follows)
  cases r <;> trivial

/-- No transaction of the operation is settled. -/
def Unsettled (w : World) (operation : OperationRecord) : Prop :=
  ∀ id t, w.transactions.get id = some t →
    t.idempotencyKey = some operation.providerIdempotencyKey → t.status ≠ .SETTLED

/-- No transaction of the stored operation is settled. -/
def NoneSettled (operationId : String) (w : World) : Prop :=
  ∀ operation, w.operations.get operationId = some operation → Unsettled w operation

/-- The operation is not failed over a settled transaction. -/
def Sound (operationId : String) (w : World) : Prop :=
  ∀ operation, w.operations.get operationId = some operation → operation.status = .FAILED →
    Unsettled w operation

/-- A final status of the operation is still there. -/
def FinalKept (operationId : String) (w w' : World) : Prop :=
  ∀ operation, w.operations.get operationId = some operation → operation.status.isFinal →
    ∃ operation', w'.operations.get operationId = some operation' ∧
      operation'.status = operation.status

abbrev Resolvers := Pool Call Answer Thrown Unit Phase World

/-- The provider calls a payment failed only while no transaction of the
operation is settled. -/
def truthful (operationId : String) : Prog.Env Call Answer Thrown World := fun w q r w' =>
  env w q r w' ∧ ∀ status, told q r = some status → isFailed status = true → NoneSettled operationId w

/-- The resolvers take turns: whoever writes a status, of the transaction or of
the operation, is the only one between a read that found the operation stuck
and its own status write. One that has ended without a write counts until it is
dropped. And whoever reads the operation again to give up on it finds none of its
transactions settled. -/
structure Orderly (operationId : String) (s : Resolvers) (i : Nat) : Prop where
  turn : ∀ h q k, s.threads i = some (h, .call q k) → Call.writesStatus q = true →
    ∀ j p, j ≠ i → s.histories j = some p → p.busy = false
  giveUp : ∀ before id k, s.threads i = some (.asking before, .call (.operationFindById id) k) →
    NoneSettled operationId s.world

/-- Ladder steps and resolutions of one operation, each split at its calls. -/
def resolvers (operationId : String) (env : Prog.Env Call Answer Thrown World)
    (allowed : Resolvers → Nat → Prop) : System Call Answer Thrown Unit Phase World where
  env := env
  next := Phase.next
  start h p := h = .waiting ∧ (p = resolveOnce operationId ∨ ∃ k, p = step operationId k)
  allowed := allowed

def orderly (operationId : String) := resolvers operationId (truthful operationId) (Orderly operationId)

/-- What every orderly move keeps, seen from an earlier world. -/
structure Kept (operationId : String) (base w : World) (g : Nat → Option Phase) : Prop where
  busy : ∀ i p, g i = some p → p.busy = true →
    ∃ operation, w.operations.get operationId = some operation ∧ operation.status.isFinal = false
  doomed : ∀ i p, g i = some p → p.fails = true → NoneSettled operationId w
  sound : Sound operationId w
  final : FinalKept operationId base w

variable {base w w' : World} {g : Nat → Option Phase} {q : Call} {r : Except Thrown (Answer q)}

theorem env_quiet (hq : Call.quiet q = true) (h : env w q r w') :
    (∀ id, w'.operations.get id = w.operations.get id) ∧
      ∀ id, w'.transactions.get id = w.transactions.get id := by
  constructor <;> intro id
  · obtain h | ⟨o, rfl, _⟩ | ⟨u, o, rfl, _⟩ := env_operations h id
    · exact h
    · simp [Call.quiet] at hq
    · simp [Call.quiet] at hq
  · obtain h | ⟨t, rfl, _⟩ | ⟨c, t, rfl, _⟩ := env_transactions h id
    · exact h
    · simp [Call.quiet] at hq
    · simp [Call.quiet] at hq

theorem NoneSettled.congr (h : NoneSettled operationId w)
    (ho : w'.operations.get operationId = w.operations.get operationId)
    (ht : ∀ id, w'.transactions.get id = w.transactions.get id) : NoneSettled operationId w' := by
  intro operation hop id t hid
  rw [ho] at hop
  rw [ht] at hid
  exact h operation hop id t hid

theorem updated_phase {i j : Nat} {s p : Phase} (h : Function.update g i (some s) j = some p) :
    (j = i ∧ s = p) ∨ (j ≠ i ∧ g j = some p) := by
  by_cases hj : j = i
  · subst hj
    rw [Function.update_self, Option.some.injEq] at h
    exact .inl ⟨rfl, h⟩
  · rw [Function.update_of_ne hj] at h
    exact .inr ⟨hj, h⟩

/-- A step that leaves the rows alone: what its resolver has become is to be
accounted for, the others stay as they are. -/
theorem Kept.same (hk : Kept operationId base w g)
    (ho : w'.operations.get operationId = w.operations.get operationId)
    (ht : ∀ id, w'.transactions.get id = w.transactions.get id) {i : Nat} {s : Phase}
    (hbusy : s.busy = true → ∃ operation, w.operations.get operationId = some operation ∧
      operation.status.isFinal = false)
    (hfails : s.fails = true → NoneSettled operationId w) :
    Kept operationId base w' (Function.update g i (some s)) where
  busy j p hj hb := by
    rw [ho]
    obtain ⟨_, rfl⟩ | ⟨_, hj⟩ := updated_phase hj
    · exact hbusy hb
    · exact hk.busy j p hj hb
  doomed j p hj hf := by
    refine NoneSettled.congr ?_ ho ht
    obtain ⟨_, rfl⟩ | ⟨_, hj⟩ := updated_phase hj
    · exact hfails hf
    · exact hk.doomed j p hj hf
  sound operation hop hf id t hid := by
    rw [ht] at hid
    rw [ho] at hop
    exact hk.sound operation hop hf id t hid
  final operation hop hf := by
    rw [ho]
    exact hk.final operation hop hf

theorem stuck_not_final {status : OperationStatusValue} (h : status.isStuck = true) :
    status.isFinal = false := by
  cases status <;> simp_all [OperationStatusValue.isStuck, OperationStatusValue.isFinal]

theorem kept_waiting {i : Nat} {r : Except Thrown (Option OperationRecord)}
    (hk : Kept operationId base w g) (henv : env w (.operationFindById operationId) r w') :
    Kept operationId base w'
      (Function.update g i (some (Phase.next .waiting (.operationFindById operationId) r))) := by
  obtain ⟨rfl, hr⟩ := env_read (fun _ => rfl) henv
  have hstill : Phase.fails (Phase.next .waiting (.operationFindById operationId) r) = false := by
    match r with
    | .error _ | .ok none => rfl
    | .ok (some operation) =>
      change Phase.fails (if operation.status.isStuck then .asking none else .spent) = false
      split <;> rfl
  refine hk.same rfl (fun _ => rfl) (fun hb => ?_) fun hf => by rw [hstill] at hf; cases hf
  obtain rfl | ⟨message, rfl⟩ := hr
  · cases ho : w'.operations.get operationId with
    | none => simp [ho, Phase.next, Phase.busy] at hb
    | some operation =>
      by_cases hst : operation.status.isStuck = true
      · exact ⟨operation, rfl, stuck_not_final hst⟩
      · simp [ho, Phase.next, Phase.busy, hst] at hb
  · simp [Phase.next, Phase.busy] at hb

theorem fails_busy {p : Phase} (h : p.fails = true) : p.busy = true := by
  cases p <;> simp_all [Phase.fails, Phase.busy]

/-- The write of an operation: alone if it carries a status, and no failure over
a settled transaction. -/
theorem kept_update {i : Nat} {p s : Phase} {u : OperationUpdate}
    {r : Except Thrown (Option OperationRecord)} (hk : Kept operationId base w g)
    (hi : g i = some p) (hbusy : p.busy = true)
    (hturn : u.status.isSome = true → ∀ j p, j ≠ i → g j = some p → p.busy = false)
    (hfailed : u.status = some .FAILED → NoneSettled operationId w)
    (hs : s = if u.status.isSome then .spent else p) (henv : env w (.operationUpdate u) r w') :
    Kept operationId base w' (Function.update g i (some s)) := by
  obtain ⟨operation, hop, hst⟩ := hk.busy i p hi hbusy
  have ht : ∀ id, w'.transactions.get id = w.transactions.get id := by
    intro id
    obtain h | ⟨t, h, _⟩ | ⟨c, t, h, _⟩ := env_transactions henv id
    · exact h
    · simp at h
    · simp at h
  have hcase : w'.operations.get operationId = w.operations.get operationId ∨
      w'.operations.get operationId = some (operation.update u) := by
    obtain h | ⟨o, h, _⟩ | ⟨v, o, hv, _, ho, h⟩ := env_operations henv operationId
    · exact .inl h
    · simp at h
    · rw [hop, Option.some.injEq] at ho
      rw [Call.operationUpdate.injEq] at hv
      subst hv ho
      exact .inr h
  have hsbusy : s.busy = true → u.status = none := by
    subst hs
    cases hu : u.status with
    | none => exact fun _ => rfl
    | some status => simp [Phase.busy]
  have hsfails : s.fails = true → p.fails = true := by
    subst hs
    cases hu : u.status with
    | none => simp
    | some status => simp [Phase.fails]
  obtain h | h := hcase
  · exact hk.same h ht (fun _ => ⟨operation, hop, hst⟩) fun hf => hk.doomed i p hi (hsfails hf)
  have hnone : NoneSettled operationId w → NoneSettled operationId w' := by
    intro hn o ho id t hid
    rw [h, Option.some.injEq] at ho
    subst ho
    rw [ht] at hid
    exact hn operation hop id t hid
  have hopen : ∀ j p', Function.update g i (some s) j = some p' → p'.busy = true →
      (operation.update u).status.isFinal = false := by
    intro j p' hj hb
    have hu : u.status = none := by
      obtain ⟨_, rfl⟩ | ⟨hne, hj⟩ := updated_phase hj
      · exact hsbusy hb
      · cases hu : u.status with
        | none => rfl
        | some status =>
          rw [hturn (by rw [hu]; rfl) j p' hne hj] at hb
          cases hb
    simpa [OperationRecord.update, hu] using hst
  refine ⟨fun j p' hj hb => ⟨_, h, hopen j p' hj hb⟩, fun j p' hj hf => ?_, fun o ho hfl => ?_,
    fun b hb hf => ?_⟩
  · obtain ⟨_, rfl⟩ | ⟨_, hj⟩ := updated_phase hj
    · exact hnone (hk.doomed i p hi (hsfails hf))
    · exact hnone (hk.doomed j p' hj hf)
  · rw [h, Option.some.injEq] at ho
    have hstatus : u.status = some .FAILED := by
      subst ho
      cases hu : u.status with
      | none =>
        have hsame : operation.status = .FAILED := by simpa [OperationRecord.update, hu] using hfl
        rw [hsame] at hst
        cases hst
      | some status => simpa [OperationRecord.update, hu] using hfl
    exact hnone (hfailed hstatus) o (ho ▸ h)
  · obtain ⟨o, ho, hsame⟩ := hk.final b hb hf
    rw [hop, Option.some.injEq] at ho
    rw [← hsame, ← ho, hst] at hf
    cases hf

/-- The write of a transaction's status, by the only resolver under way. -/
theorem kept_change {i : Nat} {before : Option TransactionStatus} {c : TransactionStatusChange}
    {r : Except Thrown (StatusChangeResult TransactionStatus TransactionRecord)}
    (hk : Kept operationId base w g) (hi : g i = some (.asking before))
    (hturn : ∀ j p, j ≠ i → g j = some p → p.busy = false)
    (hguar : ∀ status, before = some status → c.toStatus = status)
    (henv : env w (.transactionApplyStatusChange c) r w') :
    Kept operationId base w' (Function.update g i (some (.asking before))) := by
  obtain ⟨operation, hop, hst⟩ := hk.busy i _ hi rfl
  have ho : w'.operations = w.operations := (env_parties rfl henv).1
  refine ⟨fun j _ _ _ => ⟨operation, ho ▸ hop, hst⟩, fun j p hj hf => ?_, fun o hs hfl => ?_,
    fun b hb hf => ?_⟩
  · obtain ⟨_, rfl⟩ | ⟨hne, hj⟩ := updated_phase hj
    · have hbefore := hk.doomed i _ hi hf
      intro o hs id t hid hkey
      rw [ho] at hs
      obtain h | ⟨u, h, _⟩ | ⟨d, u, hd, _, hu, _, h⟩ := env_transactions henv id
      · exact hbefore o hs id t (h ▸ hid) hkey
      · simp at h
      · -- the transaction takes on the failed status that the resolver was told
        rw [Call.transactionApplyStatusChange.injEq] at hd
        subst hd
        rw [h, Option.some.injEq] at hid
        subst hid
        cases before with
        | none => cases hf
        | some status =>
          have hto : c.toStatus = status := hguar status rfl
          have hfailed : isFailed status = true := hf
          intro hsettled
          have hset : c.toStatus = .SETTLED := hsettled
          rw [← hto, hset] at hfailed
          cases hfailed
    · have hb := fails_busy hf
      rw [hturn j p hne hj] at hb
      cases hb
  · rw [ho, hop, Option.some.injEq] at hs
    rw [hs, hfl] at hst
    cases hst
  · rw [ho]
    exact hk.final b hb hf

theorem fails_asking {before : Option TransactionStatus}
    (h : Phase.fails (.asking ((told q r).orElse fun _ => before)) = true) :
    (∃ status, told q r = some status ∧ isFailed status = true) ∨ Phase.fails (.asking before) = true := by
  cases ht : told q r with
  | none =>
    rw [ht] at h
    exact .inr h
  | some status =>
    rw [ht] at h
    exact .inl ⟨status, rfl, h⟩

theorem resolvers_keeps (operationId : String) (base : World) :
    (orderly operationId).Keeps (resolving operationId) (Kept operationId base) where
  next := rfl
  start := by
    rintro h p ⟨rfl, rfl | ⟨k, rfl⟩⟩
    · exact resolveOnce_follows
    · exact step_follows k
  spawn := by
    intro w g i h p hk hfree hstart
    obtain ⟨rfl, _⟩ := hstart
    exact hk.same rfl (fun _ => rfl) (fun h => absurd h Bool.false_ne_true) fun h => absurd h Bool.false_ne_true
  drop := by
    intro w g i hk
    have hg : ∀ j p, Function.update g i none j = some p → g j = some p := by
      intro j p hj
      by_cases hji : j = i
      · rw [hji, Function.update_self] at hj
        cases hj
      · rwa [Function.update_of_ne hji] at hj
    exact ⟨fun j p hj => hk.busy j p (hg j p hj), fun j p hj => hk.doomed j p (hg j p hj), hk.sound, hk.final⟩
  call := by
    intro s i h q k r w' hk hi hok hguar henv
    refine ⟨trivial, ?_⟩
    obtain ⟨henv, htruth⟩ := henv
    have hh : s.histories i = some h := by simp [Pool.histories, hi]
    cases h with
    | waiting =>
      have hq : q = .operationFindById operationId := hguar
      subst hq
      exact kept_waiting hk henv
    | asking before =>
      have hplain : Call.quiet q = true →
          (Phase.fails (Phase.next (.asking before) q r) = true → NoneSettled operationId s.world) →
          Kept operationId base w' (Function.update s.histories i
            (some (Phase.next (.asking before) q r))) := by
        intro hq hfails
        obtain ⟨ho, ht⟩ := env_quiet hq henv
        exact hk.same (ho _) ht (fun _ => hk.busy i _ hh rfl) hfails
      have hstays := hk.doomed i _ hh
      cases q with
      | operationUpdate u =>
        exact kept_update hk hh rfl (fun hu => hok.turn _ _ k hi hu) (fun hu => hstays (hguar hu)) rfl henv
      | transactionApplyStatusChange c => exact kept_change hk hh (hok.turn _ _ k hi rfl) hguar henv
      | operationFindById id => exact hplain rfl fun _ => hok.giveUp _ _ k hi
      | providerFindByIdempotencyKey pid key =>
        refine hplain rfl fun hf => ?_
        obtain ⟨status, hstatus, hfailed⟩ | hbefore := fails_asking hf
        · exact htruth status hstatus hfailed
        · exact hstays hbefore
      | providerGet pid ref =>
        refine hplain rfl fun hf => ?_
        obtain ⟨status, hstatus, hfailed⟩ | hbefore := fails_asking hf
        · exact htruth status hstatus hfailed
        · exact hstays hbefore
      | _ => first | exact hplain rfl hstays | exact absurd hguar Bool.false_ne_true
    | exhausting =>
      have hstays := hk.doomed i _ hh rfl
      by_cases hq : Call.plain q = true
      · have hquiet : Call.quiet q = true := by cases q <;> first | rfl | exact absurd hq Bool.false_ne_true
        obtain ⟨ho, ht⟩ := env_quiet hquiet henv
        have hnext : (resolving operationId).next .exhausting q r = .exhausting := exhausting_next hquiet r
        rw [hnext]
        exact hk.same (ho _) ht (fun _ => hk.busy i _ hh rfl) fun _ => hstays
      cases q with
      | operationUpdate u =>
        exact kept_update hk hh rfl (fun hu => hok.turn _ _ k hi hu) (fun _ => hstays) rfl henv
      | _ => exact absurd hguar hq
    | spent =>
      obtain ⟨ho, ht⟩ := env_quiet hguar henv
      have hnext : (resolving operationId).next .spent q r = .spent := spent_next q r
      rw [hnext]
      exact hk.same (ho _) ht (fun h => absurd h Bool.false_ne_true) fun h => absurd h Bool.false_ne_true

/-- In every orderly run a final status of the operation stays, and the
operation is never failed over a settled transaction. -/
theorem final_status_stays {s₀ s s' : Resolvers} (hfree : s₀.threads = fun _ => none)
    (hsound : Sound operationId s₀.world) (hs : (orderly operationId).Reaches s₀ s)
    (hs' : (orderly operationId).Reaches s s') :
    FinalKept operationId s.world s'.world ∧ Sound operationId s'.world := by
  have hobeys : System.Obeys (resolving operationId) s₀ := fun i h p hi => by simp [hfree] at hi
  have hstart : Kept operationId s₀.world s₀.world s₀.histories :=
    ⟨fun i p hi => by simp [Pool.histories, hfree] at hi, fun i p hi => by simp [Pool.histories, hfree] at hi,
      hsound, fun o ho _ => ⟨o, ho, rfl⟩⟩
  obtain ⟨hobeys, hk⟩ := (resolvers_keeps operationId s₀.world).reaches hs hobeys hstart
  have hmid : Kept operationId s.world s.world s.histories :=
    ⟨hk.busy, hk.doomed, hk.sound, fun o ho _ => ⟨o, ho, rfl⟩⟩
  obtain ⟨-, hk'⟩ := (resolvers_keeps operationId s.world).reaches hs' hobeys hmid
  exact ⟨hk'.final, hk'.sound⟩

section Sample

def unknownPool : Resolvers := ⟨unknownWorld, fun _ => none⟩

theorem noneSettled_of_search {w : World} (h : (w.transactions.search fun t => t.status == .SETTLED) = none) :
    NoneSettled operationId w := by
  intro operation _ id t hid _ hsettled
  have hno := Rows.search_eq_none.mp h id t hid
  rw [hsettled] at hno
  cases hno

/-- One move of the only resolver there is. -/
theorem move_alone {w w' : World} {p : Phase} {q : Call} {r : Except Thrown (Answer q)}
    {k : Except Thrown (Answer q) → Flow Unit} (c : Choice) (hanswer : answer c q w = some (r, w'))
    (hcalm : (w.transactions.search fun t => t.status == .SETTLED) = none) :
    (orderly "opr_1").Step ⟨w, Function.update unknownPool.threads 0 (some (p, .call q k))⟩
      ⟨w', Function.update unknownPool.threads 0 (some (p.next q r, k r))⟩ := by
  have hnone : NoneSettled "opr_1" w := noneSettled_of_search hcalm
  have hok : Orderly "opr_1" ⟨w, Function.update unknownPool.threads 0 (some (p, .call q k))⟩ 0 := by
    refine ⟨fun _ _ _ _ _ j p' hj hp' => ?_, fun _ _ _ _ => hnone⟩
    rw [Pool.histories_update, Function.update_of_ne hj] at hp'
    cases hp'
  have hmove := System.Step.resume (S := orderly "opr_1") 0 (Function.update_self 0 _ unknownPool.threads)
    hok (⟨⟨c, hanswer⟩, fun _ _ _ => hnone⟩ : truthful "opr_1" w q r w')
  rwa [Function.update_idem] at hmove

def failedAnswer : PixTransaction := ⟨"ptx_1", some "E1", .FAILED, none, some ("AM04", "Saldo insuficiente")⟩

/-- A resolution is told that the payment failed and writes it down. A ladder step
that comes after it leaves the operation. -/
theorem final_status_stays_failed : ∃ s s' : Resolvers,
    (s.world.operations.get "opr_1").map (·.status) = some .FAILED ∧ s'.histories 0 = some .spent ∧
      FinalKept "opr_1" s.world s'.world ∧ Sound "opr_1" s'.world := by
  have hstart : (orderly "opr_1").Reaches unknownPool
      ⟨unknownWorld, Function.update unknownPool.threads 0 (some (.waiting, resolveOnce "opr_1"))⟩ :=
    .single (.spawn 0 rfl ⟨rfl, .inl rfl⟩)
  have hresolve : ∃ s : Resolvers, (s.world.operations.get "opr_1").map (·.status) = some .FAILED ∧
      (orderly "opr_1").Reaches ⟨unknownWorld, Function.update unknownPool.threads 0
        (some (.waiting, resolveOnce "opr_1"))⟩ s := by
    refine ⟨_, rfl, .head (move_alone {} rfl rfl) (.head (move_alone {} rfl rfl)
      (.head (move_alone {} rfl rfl) (.head (move_alone {} rfl rfl) (.head (move_alone {} rfl rfl)
      (.head (move_alone { found := .ok (some failedAnswer) } rfl rfl)
      (.head (move_alone { instant := 2000 } rfl rfl)
      (.head (move_alone { mint := sampleMint "ltx_2" } rfl rfl) (.head (move_alone {} rfl rfl)
      (.head (move_alone {} rfl rfl) (.single (move_alone {} rfl rfl)))))))))))⟩
  obtain ⟨s, hfailed, hs⟩ := hresolve
  obtain ⟨operation, hop, hst⟩ := Option.map_eq_some_iff.mp hfailed
  have hread : truthful "opr_1" s.world (.operationFindById "opr_1") (.ok (some operation)) s.world :=
    ⟨hop ▸ env_of_read fun _ => rfl, nofun⟩
  have hlater : Orderly "opr_1" ⟨s.world, Function.update (Function.update s.threads 0 none) 0
      (some (.waiting, step "opr_1" 6))⟩ 0 :=
    ⟨fun _ _ _ hi hw => (by cases hi; cases hw), fun _ _ _ hi => (by cases hi)⟩
  refine ⟨s, _, hfailed, ?_, final_status_stays rfl (fun o ho hf => by cases ho; cases hf) (hstart.trans hs)
    (.head (.drop 0) (.head (.spawn 0 rfl ⟨rfl, .inr ⟨6, rfl⟩⟩) (.single (.resume 0 rfl hlater hread))))⟩
  simp [Pool.histories, orderly, resolvers, Phase.next, hst, OperationStatusValue.isStuck]

def bothStarted : Resolvers :=
  ⟨unknownWorld, Function.update (Function.update unknownPool.threads 0
    (some (.waiting, resolveOnce "opr_1"))) 1 (some (.waiting, step "opr_1" 6))⟩

def settledAnswer : PixTransaction := ⟨"ptx_1", some "E1", .SETTLED, some 1900, none⟩

/-- The last step of the ladder looks in vain and is overtaken by a resolution
that finds the payment settled. -/
def overtaken : List (Nat × Choice) :=
  [(1, {}), (1, {}), (1, {}), (1, {}), (1, {}), (1, {}), (1, {}),
    (0, {}), (0, {}), (0, {}), (0, {}), (0, {}), (0, { found := .ok (some settledAnswer) }),
    (0, { instant := 2000 }), (0, { mint := sampleMint "ltx_2" }), (0, {}), (0, {})]

def free (operationId : String) := resolvers operationId env fun _ _ => True

theorem settled_operation_fails :
    ¬ ∀ (operationId : String) (s₀ s s' : Resolvers), s₀.threads = (fun _ => none) →
      Sound operationId s₀.world → (free operationId).Reaches s₀ s →
      (free operationId).Reaches s s' →
      FinalKept operationId s.world s'.world ∧ Sound operationId s'.world := by
  intro h
  have hstart : (free "opr_1").Reaches unknownPool bothStarted :=
    .head (.spawn 0 rfl ⟨rfl, .inl rfl⟩) (.single (.spawn 1 rfl ⟨rfl, .inr ⟨6, rfl⟩⟩))
  have henv : ∀ (c : Choice) (q : Call) (w : World) (r : Except Thrown (Answer q)) (w' : World),
      answer c q w = some (r, w') → env w q r w' := fun c _ _ _ _ hc => ⟨c, hc⟩
  have hsettled : ∃ s, bothStarted.script answer Phase.next overtaken = some s ∧
      ∃ s', s.script answer Phase.next [(1, {}), (1, {})] = some s' ∧
      (s.world.operations.get "opr_1").map (·.status) = some .SETTLED ∧
      (s'.world.operations.get "opr_1").map (·.status) = some .FAILED :=
    ⟨_, rfl, _, rfl, by decide, by decide⟩
  obtain ⟨s, hs, s', hs', hbefore, hafter⟩ := hsettled
  have hrun : (free "opr_1").Reaches bothStarted s :=
    System.reaches_of_script henv (fun _ _ => trivial) hs
  have hrun' : (free "opr_1").Reaches s s' :=
    System.reaches_of_script henv (fun _ _ => trivial) hs'
  have hsound : Sound "opr_1" unknownPool.world := by
    intro operation ho hf
    cases ho
    cases hf
  obtain ⟨hkept, _⟩ := h "opr_1" unknownPool s s' rfl hsound (hstart.trans hrun) hrun'
  obtain ⟨operation, ho, hst⟩ := Option.map_eq_some_iff.mp hbefore
  obtain ⟨operation', ho', hsame⟩ := hkept operation ho (by rw [hst]; rfl)
  rw [ho', Option.map_some, hsame, hst] at hafter
  cases hafter

end Sample

end BaasConnector.Worker.Finality
