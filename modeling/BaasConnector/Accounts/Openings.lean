import BaasConnector.Accounts.Rows
import BaasConnector.Idempotency.Interceptor
import BaasConnector.Lib.Threads
import BaasConnector.Pix.Transfers

namespace BaasConnector.Accounts.Create

open BaasConnector.Lib.Effects BaasConnector.Taxonomy.Status BaasConnector.Taxonomy.Errors
open BaasConnector.Connector.Records BaasConnector.Connector.Calls BaasConnector.Pix.Transfers

structure CreateAccountDto where
  taxIdIndex : String
  business : Bool
  externalId : Option String
deriving DecidableEq, Repr

def accountDraft (actor : ActorContext) (dto : CreateAccountDto) (bound : BoundProvider)
    (id : String) : AccountRecord :=
  { id := id
    provider := bound.slug
    providerConnectionId := actor.connectionId
    providerAccountId := none
    externalId := dto.externalId
    status := .DRAFT
    lastEventAt := none
    ledgerAvailableAccountId := none }

/-- The local row is written first, the provider is called, and only then does
the row carry the provider's id, under the status the provider answered with. -/
def openAtProvider (actor : ActorContext) (dto : CreateAccountDto) (bound : BoundProvider)
    (id : String) : Flow AccountRecord := do
  let account ← ask (.accountCreate (accountDraft actor dto bound id))
  let created ← ask (.providerCreateAccount account.id)
  let attached ← ask (.accountAttachProviderAccount account.id created.providerAccountId
    created.status)
  let availableId ← ask (.ledgerOpenAccounts attached.id)
  let withLedger ← ask (.accountAttachLedgerAccounts attached.id availableId)
  let _ ← (ask (.emit (.onboarding withLedger.id))).attempt
  ask (.emit (.outbox "ACCOUNT_CREATED" "account" attached.id))
  ask (.emit (.audit "account.create" attached.id))
  return withLedger

def create (actor : ActorContext) (dto : CreateAccountDto) : Flow AccountRecord := do
  let _ ← ask .now
  let existing ← match dto.externalId with
    | some externalId => ask (.accountFindByExternalId externalId)
    | none => pure none
  match existing with
  | some account => return account
  | none =>
    ask (.emit (.holder dto.taxIdIndex))
    let id ← ask (.newId .account)
    let bound ← ask (.providerRequire actor.connectionId
      (if dto.business then .accountsCreatePJ else .accountsCreatePF))
    openAtProvider actor dto bound id

end BaasConnector.Accounts.Create

namespace BaasConnector.Accounts.Openings

open BaasConnector.Lib.Effects BaasConnector.Lib.Keyed BaasConnector.Taxonomy.Errors
open BaasConnector.Connector.Records BaasConnector.Connector.Calls BaasConnector.Connector.Database
open BaasConnector.Idempotency.Interceptor BaasConnector.Accounts.Create

/-- The stored state with the external ids under which the provider has opened
accounts. -/
structure Bank where
  world : World
  openings : List String

/-- A call that the provider refuses opens nothing. One that fails otherwise may
have opened the account. -/
def opens : (q : Call) → Except Thrown (Answer q) → List String → List String → Prop
  | .providerCreateAccount externalId, .ok _, before, after => after = before.insert externalId
  | .providerCreateAccount _, .error (.baas _), before, after => after = before
  | .providerCreateAccount externalId, .error _, before, after =>
    after = before ∨ after = before.insert externalId
  | _, _, before, after => after = before

def bankEnv : Prog.Env Call Answer Thrown Bank := fun b q r b' =>
  env b.world q r b'.world ∧ opens q r b.openings b'.openings

/-- The holder's row, which the answer shows, is read once more. -/
def holderOf (account : AccountRecord) : Flow Unit := ask (.emit (.holder account.id))

def createHandler (actor : Pix.Transfers.ActorContext) (dto : CreateAccountDto) : Handler := fun _ => do
  let account ← create actor dto
  holderOf account
  return (201, .account account)

/-- The account that a response names. -/
def accountOf : ResponseBody → Option String
  | .account record => some record.id
  | _ => none

/-- How far a request has come: outside of the handler, before the record of
another try, in the handler, with its row written, with the account opened at the
provider, with an account to answer with, or done without one. -/
inductive Stage
  | outside | conflicted (recordId : String) | running | drafted (id : String)
  | opened (id : String) | named (id : String) | ended
deriving DecidableEq, Repr

/-- A response that is replayed names its account. -/
def replayed (record : IdempotencyRecord) : Stage :=
  if record.state = .IN_FLIGHT then .conflicted record.id
  else match record.responseBody.bind accountOf with
    | some id => .named id
    | none => .ended

def next : Stage → (q : Call) → Except Thrown (Answer q) → Stage
  | .outside, .idempotencyClaim _, .ok claim =>
    if claim.claimed then .running else replayed claim.record
  | .conflicted _, .idempotencyStealLease .., .ok (some _) => .running
  | .running, .accountFindByExternalId _, .ok (some account) => .named account.id
  | .running, .accountCreate _, .ok account => .drafted account.id
  | .drafted id, .providerCreateAccount _, .ok _ => .opened id
  | .drafted _, .providerCreateAccount _, .error _ => .ended
  | .opened id, .accountAttachProviderAccount .., .ok _ => .named id
  | .opened _, .accountAttachProviderAccount .., .error _ => .ended
  | .running, .idempotencyRelease _, _ | .running, .idempotencyRenewLease .., _
  | .running, .idempotencyComplete _, _ => .ended
  | stage, _, _ => stage

/-- Calls that leave the accounts' links and the idempotency records alone. -/
def Quiet : Call → Prop
  | .now | .emit _ | .newId _ | .providerRequire .. | .ledgerOpenAccounts _
  | .accountAttachLedgerAccounts .. => True
  | _ => False

/-- The end of an execution, which stores no account but the one it has. -/
def Closing (stage : Stage) : Call → Prop
  | .idempotencyRelease _ | .idempotencyRenewLease .. => True
  | .idempotencyComplete completion => ∀ id, accountOf completion.body = some id → stage = .named id
  | _ => False

def guar (request : IdempotentRequest) (dto : CreateAccountDto) : Stage → Call → Prop
  | .outside, .idempotencyClaim claim =>
    claim.endpointKey = request.endpointKey ∧ claim.key = request.key
  | .conflicted recordId, .idempotencyStealLease id _ => id = recordId
  | .conflicted _, .now => True
  | .running, .accountFindByExternalId externalId => dto.externalId = some externalId
  | .running, .accountCreate record => record.externalId = dto.externalId
  | .running, q => Quiet q ∨ Closing .running q
  | .drafted id, q => q = .providerCreateAccount id
  | .opened id, q => ∃ providerAccountId status, q = .accountAttachProviderAccount id providerAccountId status
  | .named id, q => Quiet q ∨ Closing (.named id) q
  | .ended, q => Closing .ended q
  | _, _ => False

/-- A write of an account answers with the row of its id. -/
def rely : (q : Call) → Except Thrown (Answer q) → Prop
  | .accountAttachProviderAccount id .., .ok account => account.id = id
  | .accountAttachLedgerAccounts id _, .ok account => account.id = id
  | _, _ => True

def opening (request : IdempotentRequest) (dto : CreateAccountDto) :
    Protocol Call Answer Thrown Stage where
  next := next
  rely _ := rely
  guar := guar request dto

/-- What a request ends with: the account it names is the one it has. -/
def Answered (stage : Stage) (r : Except Thrown Response) : Prop :=
  ∀ response id, r = .ok response → response.body.bind accountOf = some id → stage = .named id

/-- What the handler ends with: an account to answer with, or nothing under way. -/
def Handled (stage : Stage) : Except Thrown (Nat × ResponseBody) → Prop
  | .ok (_, body) => ∀ id, accountOf body = some id → stage = .named id
  | .error _ => True

def Stage.settled : Stage → Prop
  | .running | .named _ | .ended => True
  | _ => False

variable {request : IdempotentRequest} {dto : CreateAccountDto} {actor : Pix.Transfers.ActorContext}
  {stage : Stage} {α : Type}

/-- The stages in which the handler reads, emits and mints. -/
def Stage.free : Stage → Prop
  | .running | .named _ => True
  | _ => False

theorem quiet_call (request : IdempotentRequest) (dto : CreateAccountDto) {q : Call}
    (hstage : stage.free) (hq : Quiet q) :
    (opening request dto).guar stage q ∧ ∀ r, (opening request dto).next stage q r = stage := by
  cases stage <;> first | exact hstage.elim | skip
  · cases q <;> first | exact hq.elim | exact ⟨.inl trivial, fun r => rfl⟩
  · exact ⟨.inl hq, fun r => by cases q <;> first | exact hq.elim | rfl⟩

theorem quiet_bind {β : Type} {q : Call} {f : Answer q → Flow β} {post : Stage → Except Thrown β → Prop}
    (hstage : stage.free) (hq : Quiet q)
    (hok : ∀ a, rely q (.ok a) → (f a).Follows (opening request dto) post stage)
    (herror : ∀ e, post stage (.error e)) :
    ((ask q).bind f).Follows (opening request dto) post stage := by
  obtain ⟨hguar, hnext⟩ := quiet_call request dto hstage hq
  refine Prog.follows_perform_bind.mpr ⟨hguar, fun a ha => ?_, fun e _ => ?_⟩
  · rw [hnext]
    exact hok a ha
  · rw [hnext]
    exact herror e

/-- What the creation ends with: the account that it names, or nothing under way. -/
def Created (stage : Stage) : Except Thrown AccountRecord → Prop
  | .ok account => stage = .named account.id
  | .error _ => stage.settled

theorem openAtProvider_follows (bound : BoundProvider) (id : String) :
    (openAtProvider actor dto bound id).Follows (opening request dto) Created .running := by
  unfold openAtProvider
  refine Prog.follows_perform_bind.mpr ⟨rfl, fun account _ => ?_, fun e _ => trivial⟩
  refine Prog.follows_perform_bind.mpr ⟨rfl, fun created _ => ?_, fun e _ => trivial⟩
  refine Prog.follows_perform_bind.mpr ⟨⟨_, _, rfl⟩, fun attached hattached => ?_, fun e _ => trivial⟩
  have hid : attached.id = account.id := hattached
  change Prog.Follows (opening request dto) _ Created (.named account.id)
  refine quiet_bind trivial trivial (fun availableId _ => ?_) fun e => trivial
  refine quiet_bind trivial trivial (fun withLedger hledger => ?_) fun e => trivial
  have hwith : withLedger.id = account.id := Eq.trans hledger hid
  refine Prog.follows_perform_attempt_bind.mpr ⟨.inl trivial, fun _ _ => ?_⟩
  refine quiet_bind trivial trivial (fun _ _ => ?_) fun e => trivial
  refine quiet_bind trivial trivial (fun _ _ => ?_) fun e => trivial
  exact congrArg Stage.named hwith.symm

theorem create_follows :
    (create actor dto).Follows (opening request dto) Created .running := by
  have hnew : (do
      ask (.emit (.holder dto.taxIdIndex))
      let id ← ask (.newId .account)
      let bound ← ask (.providerRequire actor.connectionId
        (if dto.business then .accountsCreatePJ else .accountsCreatePF))
      openAtProvider actor dto bound id : Flow AccountRecord).Follows (opening request dto)
        Created .running := by
    refine quiet_bind trivial trivial (fun _ _ => ?_) fun e => trivial
    refine quiet_bind trivial trivial (fun id _ => ?_) fun e => trivial
    refine quiet_bind trivial trivial (fun bound _ => ?_) fun e => trivial
    exact openAtProvider_follows bound id
  unfold create
  refine quiet_bind trivial trivial (fun _ _ => ?_) fun e => trivial
  cases hext : dto.externalId with
  | none => exact hnew
  | some externalId =>
    refine Prog.follows_perform_bind.mpr ⟨hext, fun found _ => ?_, fun e _ => trivial⟩
    cases found with
    | none => exact hnew
    | some account => exact rfl

theorem createHandler_follows (ctx : HandlerContext) :
    (createHandler actor dto ctx).Follows (opening request dto)
      (fun stage r => stage.settled ∧ Handled stage r) .running := by
  unfold createHandler
  refine Prog.follows_bind.mpr (Prog.follows_mono (fun stage r hr => ?_) create_follows)
  cases r with
  | error e => exact ⟨hr, trivial⟩
  | ok account =>
    have hs : stage = .named account.id := hr
    subst hs
    refine quiet_bind trivial trivial (fun _ _ => ⟨trivial, fun id hid => ?_⟩) fun e => ⟨trivial, trivial⟩
    exact congrArg Stage.named (Option.some.inj hid)

theorem closing_call {q : Call} (hstage : stage.settled) (hq : Closing stage q) :
    (opening request dto).guar stage q := by
  cases stage with
  | running => cases q <;> first | exact hq.elim | exact .inr hq
  | named id => exact .inr hq
  | ended => exact hq
  | _ => exact hstage.elim

theorem onFailure_follows (recordId : String) (e : Thrown) (hstage : stage.settled) :
    (onFailure recordId e).Follows (opening request dto) (fun _ _ => True) stage := by
  unfold onFailure
  cases e with
  | outcomeUnknown e => exact Prog.follows_perform.mpr ⟨closing_call hstage trivial, fun _ _ => trivial⟩
  | failure message => exact Prog.follows_perform.mpr ⟨closing_call hstage trivial, fun _ _ => trivial⟩
  | baas e =>
    dsimp only
    split
    · exact Prog.follows_perform.mpr ⟨closing_call hstage fun _ h => (by cases h), fun _ _ => trivial⟩
    · exact Prog.follows_perform.mpr ⟨closing_call hstage trivial, fun _ _ => trivial⟩

theorem execute_follows (ctx : HandlerContext) (recordId : String) :
    (execute (createHandler actor dto ctx) recordId).Follows (opening request dto) Answered .running := by
  have hrun : (runHandler (createHandler actor dto ctx) recordId).Follows (opening request dto)
      (fun stage r => stage.settled ∧ Answered stage r) .running := by
    unfold runHandler
    refine Prog.follows_bind.mpr (Prog.follows_mono (fun stage r hr => ?_) (createHandler_follows ctx))
    obtain ⟨hstage, hr⟩ := hr
    cases r with
    | error e => exact ⟨hstage, fun _ _ h => by cases h⟩
    | ok answer =>
      obtain ⟨status, body⟩ := answer
      refine Prog.follows_perform_bind.mpr ⟨closing_call hstage hr, fun _ _ => ?_, fun e _ => ?_⟩
      · refine ⟨?_, fun response id hok hid => ?_⟩
        · cases stage <;> first | exact hstage.elim | exact hstage
        · cases hok
          rw [hr id hid]
          rfl
      · refine ⟨?_, fun _ _ h => by cases h⟩
        cases stage <;> first | exact hstage.elim | exact hstage
  unfold execute
  refine Prog.follows_bind.mpr (Prog.follows_attempt.mpr (Prog.follows_mono (fun stage r hr => ?_) hrun))
  rw [onResult_ok]
  cases r with
  | ok response => exact hr.2
  | error e =>
    refine Prog.follows_bind.mpr (Prog.follows_mono (fun _ r _ => ?_) (onFailure_follows recordId e hr.1))
    cases r <;> exact fun _ _ h => by cases h

theorem resolveConflict_follows (record : IdempotencyRecord) (fingerprint : String) :
    (resolveConflict record fingerprint (createHandler actor dto)).Follows (opening request dto)
      Answered (replayed record) := by
  unfold resolveConflict
  split
  · exact fun _ _ h => by cases h
  · split
    · next hstate =>
      intro response id hok hid
      cases hok
      have hbind : record.responseBody.bind accountOf = some id := hid
      simp only [replayed, hbind]
      rw [if_neg hstate]
    · next hstate =>
      have hout : replayed record = .conflicted record.id := if_pos (not_not.mp hstate)
      rw [hout]
      refine Prog.follows_perform_bind.mpr ⟨trivial, fun now _ => ?_, fun _ _ _ _ h => by cases h⟩
      split
      · exact fun _ _ h => by cases h
      · refine Prog.follows_perform_bind.mpr ⟨rfl, fun stolen _ => ?_, fun _ _ _ _ h => by cases h⟩
        cases stolen with
        | none => exact fun _ _ h => by cases h
        | some stolen => exact execute_follows ⟨some stolen.operationId, true⟩ stolen.id

theorem handle_follows (hkey : request.key.isEmpty = false) :
    (handle request (createHandler actor dto)).Follows (opening request dto) Answered .outside := by
  unfold handle
  rw [hkey]
  simp only [Bool.false_eq_true, if_false, Prog.bind_eq]
  unfold assertKeyFormat
  split
  · split
    · exact fun _ _ h => by cases h
    · refine Prog.follows_perform_bind.mpr ⟨⟨rfl, rfl⟩, fun claim _ => ?_, fun _ _ _ _ h => by cases h⟩
      split
      · next hclaimed =>
        rw [show (opening request dto).next .outside _ (.ok claim) = .running from if_pos hclaimed]
        exact execute_follows ⟨some claim.record.operationId, false⟩ claim.record.id
      · next hclaimed =>
        rw [show (opening request dto).next .outside _ (.ok claim) = replayed claim.record
          from if_neg hclaimed]
        exact resolveConflict_follows claim.record request.requestFingerprint
  · exact fun _ _ h => by cases h

end BaasConnector.Accounts.Openings
