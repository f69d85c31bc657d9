import BaasConnector.Lib.Threads
import BaasConnector.Webhooks.Footprint

namespace BaasConnector.Webhooks.Pipeline

open BaasConnector.Lib.Effects BaasConnector.Lib.Keyed BaasConnector.Taxonomy.Status
open BaasConnector.Taxonomy.Errors BaasConnector.Connector.Records BaasConnector.Connector.Calls
open BaasConnector.Connector.Database BaasConnector.Connector.Replies
open BaasConnector.Pix.HoldResolution BaasConnector.Webhooks.Apply BaasConnector.Webhooks.Matching
open BaasConnector.Webhooks.Footprint

/-- How far one application of an event has come: in the queue, with the event
claimed, with its outcome written down, without the event, or broken off. -/
inductive Stage
  | queued | owner | settled | lost | broken
deriving DecidableEq, Repr

structure Application where
  eventId : String
  stage : Stage
deriving DecidableEq, Repr

/-- What a claimed event's application makes of one reply. -/
def Stage.proceed : Stage → (q : Call) → Except Thrown (Answer q) → Stage
  | stage, .lockRelease _, _ => stage
  | stage, .lockAcquire _, .ok true => stage
  | .owner, .lockAcquire _, _ => .broken
  | stage, .lockAcquire _, _ => stage
  | _, .eventMarkProcessed _, .ok _ => .settled
  | _, .eventMarkDiscarded .., .ok _ => .settled
  | stage, _, .ok _ => stage
  | _, _, .error _ => .broken

def Stage.next : Stage → (q : Call) → Except Thrown (Answer q) → Stage
  | .queued, .eventMarkProcessing _, .ok true => .owner
  | .queued, .eventMarkProcessing _, _ => .lost
  | .queued, _, _ => .queued
  | .owner, q, r => Stage.proceed .owner q r
  | .settled, q, r => Stage.proceed .settled q r
  | .lost, _, _ => .lost
  | .broken, _, _ => .broken

def next (h : Application) (q : Call) (r : Except Thrown (Answer q)) : Application :=
  { h with stage := h.stage.next q r }

/-- The calls of a claimed event's application. -/
def Working (eventId : String) : Call → Prop
  | .eventMarkProcessed id | .eventMarkDiscarded id _ => id = eventId
  | .providerResolve _ => True
  | q => Drafting q

def guar (h : Application) (q : Call) : Prop :=
  match h.stage with
  | .queued => q = .eventFindById h.eventId ∨ q = .eventMarkProcessing h.eventId
  | .owner | .settled => Working h.eventId q
  | .lost => False
  | .broken => True

/-- What is read under an id is the record of that id. -/
def rely : (q : Call) → Except Thrown (Answer q) → Prop
  | .eventFindById id, .ok (some event) => event.id = id
  | _, _ => True

def applying : Protocol Call Answer Thrown Application where
  next := next
  rely _ := rely
  guar := guar

/-- An application does not end with the event still claimed. -/
def Released (h : Application) (_ : Except Thrown Unit) : Prop := h.stage ≠ .owner

variable {eventId : String} {stage : Stage} {α : Type}

/-- A stage in which the event is claimed. -/
def Stage.claimed : Stage → Prop
  | .owner | .settled => True
  | _ => False

/-- Calls that leave the event alone: a reply leaves the stage, a failure breaks off. -/
theorem drafting_call (eventId : String) {q : Call} (hstage : stage.claimed) (hq : Drafting q)
    (hlock : ∀ key, q ≠ .lockAcquire key ∧ q ≠ .lockRelease key) :
    applying.guar ⟨eventId, stage⟩ q ∧ (∀ a, applying.next ⟨eventId, stage⟩ q (.ok a) = ⟨eventId, stage⟩) ∧
      ∀ e, applying.next ⟨eventId, stage⟩ q (.error e) = ⟨eventId, .broken⟩ := by
  cases stage <;> cases q <;>
    simp_all [Stage.claimed, Drafting, applying, guar, next, Stage.next, Stage.proceed, Working]

/-- A program whose failures end it: what it returns leaves the stage where it
was, and what it throws has broken the application off. -/
def Plain (p : Flow α) : Prop :=
  ∀ eventId stage, stage.claimed → p.Follows applying
    (fun h r => onResult (fun _ => h = ⟨eventId, stage⟩) (fun _ => h = ⟨eventId, .broken⟩) r)
    ⟨eventId, stage⟩

theorem plain_pure (a : α) : Plain (.pure a : Flow α) := fun _ _ _ => rfl

theorem plain_bind {β : Type} {p : Flow α} {f : α → Flow β} (hp : Plain p) (hf : ∀ a, Plain (f a)) :
    Plain (p.bind f) := by
  intro eventId stage hstage
  refine Prog.follows_bind.mpr (Prog.follows_mono (fun h r hr => ?_) (hp eventId stage hstage))
  cases r with
  | ok a =>
    have hh : h = ⟨eventId, stage⟩ := hr
    rw [hh]
    exact hf a eventId stage hstage
  | error e => exact hr

theorem plain_ask {q : Call} (hq : Drafting q) (hlock : ∀ key, q ≠ .lockAcquire key ∧ q ≠ .lockRelease key) :
    Plain (ask q) := by
  intro eventId stage hstage
  obtain ⟨hguar, hok, herror⟩ := drafting_call eventId hstage hq hlock
  refine Prog.follows_perform.mpr ⟨hguar, fun r _ => ?_⟩
  cases r with
  | ok a => exact hok a
  | error e => exact herror e

theorem plain_ask_bind {β : Type} {q : Call} {f : Answer q → Flow β} (hq : Drafting q)
    (hlock : ∀ key, q ≠ .lockAcquire key ∧ q ≠ .lockRelease key) (hf : ∀ a, Plain (f a)) :
    Plain ((ask q).bind f) := plain_bind (plain_ask hq hlock) hf

theorem findTransaction_plain (ctx : ApplyContext) (draft : CanonicalEventDraft)
    (data : PaymentEventData) : Plain (findTransaction ctx draft data) := by
  unfold findTransaction
  refine plain_ask_bind trivial (by simp) fun found => ?_
  cases found with
  | some transaction => exact plain_pure _
  | none =>
    cases data.endToEndId with
    | none => exact plain_pure _
    | some endToEndId => exact plain_ask trivial (by simp)

theorem holdResolution_plain (hold : Option String) (status : TransactionStatus) (id : String) :
    Plain (holdResolution hold status id) := by
  unfold holdResolution
  cases hold with
  | none => exact plain_pure _
  | some hold =>
    cases resolves status with
    | none => exact plain_pure _
    | some commit =>
      refine plain_ask_bind ?_ (by simp) fun _ => plain_pure _
      cases commit <;> exact ⟨id, rfl⟩

/-- How the application of one draft leaves the event: a recorded draft has
written the outcome of the event down. -/
def Drafted (eventId : String) (stage : Stage) (h : Application) : Except Thrown DraftOutcome → Prop
  | .ok .recorded => h = ⟨eventId, .settled⟩
  | .ok _ => h = ⟨eventId, stage⟩
  | .error _ => h = ⟨eventId, .broken⟩

/-- How a write of the outcome leaves the event. -/
def Marked (eventId : String) (h : Application) : Except Thrown Unit → Prop
  | .ok _ => h = ⟨eventId, .settled⟩
  | .error _ => h = ⟨eventId, .broken⟩

theorem onDuplicate_follows {ctx : ApplyContext} (hctx : ctx.eventId = some eventId) (reason : String)
    (hstage : stage.claimed) :
    (onDuplicate ctx reason).Follows applying (Marked eventId) ⟨eventId, stage⟩ := by
  unfold onDuplicate
  rw [hctx]
  cases stage with
  | owner | settled =>
    refine Prog.follows_perform.mpr ⟨rfl, fun r _ => ?_⟩
    cases r <;> exact rfl
  | _ => exact hstage.elim

theorem marked_of_plain {q : Call} {f : Answer q → Flow Unit} (hq : Drafting q)
    (hlock : ∀ key, q ≠ .lockAcquire key ∧ q ≠ .lockRelease key) (hstage : stage.claimed)
    (hf : ∀ a, (f a).Follows applying (Marked eventId) ⟨eventId, stage⟩) :
    ((ask q).bind f).Follows applying (Marked eventId) ⟨eventId, stage⟩ := by
  obtain ⟨hguar, hok, herror⟩ := drafting_call eventId hstage hq hlock
  refine Prog.follows_perform_bind.mpr ⟨hguar, fun a _ => ?_, fun e _ => herror e⟩
  rw [hok a]
  exact hf a

theorem handleRejection_follows {ctx : ApplyContext} (hctx : ctx.eventId = some eventId)
    (resourceType resourceId : String) (reason : StatusChangeRejection) (hstage : stage.claimed) :
    (handleRejection ctx resourceType resourceId reason).Follows applying (Marked eventId)
      ⟨eventId, stage⟩ := by
  unfold handleRejection
  split
  · exact onDuplicate_follows hctx _ hstage
  · refine marked_of_plain trivial (by simp) hstage fun _ => ?_
    refine marked_of_plain trivial (by simp) hstage fun _ => ?_
    refine marked_of_plain trivial (by simp) hstage fun _ => ?_
    refine marked_of_plain trivial (by simp) hstage fun _ => ?_
    unfold onAnomaly
    rw [hctx]
    refine marked_of_plain trivial (by simp) hstage fun _ => ?_
    cases stage with
    | owner | settled =>
      refine Prog.follows_perform.mpr ⟨rfl, fun r _ => ?_⟩
      cases r <;> exact rfl
    | _ => exact hstage.elim

theorem drafted_of_plain {β : Type} {p : Flow β} {f : β → Flow DraftOutcome} (hp : Plain p)
    (hstage : stage.claimed)
    (hf : ∀ a, (f a).Follows applying (Drafted eventId stage) ⟨eventId, stage⟩) :
    (p.bind f).Follows applying (Drafted eventId stage) ⟨eventId, stage⟩ := by
  refine Prog.follows_bind.mpr (Prog.follows_mono (fun h r hr => ?_) (hp eventId stage hstage))
  cases r with
  | ok a =>
    have hh : h = ⟨eventId, stage⟩ := hr
    rw [hh]
    exact hf a
  | error e => exact hr

theorem recorded_of_marked {p : Flow Unit} {h : Application}
    (hp : p.Follows applying (Marked eventId) h) :
    (p.bind fun _ => .pure .recorded).Follows applying (Drafted eventId stage) h := by
  refine Prog.follows_bind.mpr (Prog.follows_mono (fun h r hr => ?_) hp)
  cases r <;> exact hr

theorem applyToExisting_follows {ctx : ApplyContext} (hctx : ctx.eventId = some eventId)
    (draft : CanonicalEventDraft) (data : PaymentEventData) (incoming : TransactionStatus)
    (existing : TransactionRecord) (hstage : stage.claimed) :
    (applyToExisting ctx draft data incoming existing).Follows applying (Drafted eventId stage)
      ⟨eventId, stage⟩ := by
  rw [applyToExisting_eq]
  refine drafted_of_plain (holdResolution_plain _ _ _) hstage fun posted => ?_
  unfold finish
  refine drafted_of_plain (plain_ask trivial (by simp)) hstage fun result => ?_
  cases result with
  | applied record =>
    exact drafted_of_plain (plain_ask trivial (by simp)) hstage fun _ => rfl
  | rejected reason current =>
    exact recorded_of_marked (handleRejection_follows hctx "transaction" existing.id reason hstage)

theorem creditInbound_follows (ctx : ApplyContext) (draft : CanonicalEventDraft)
    (data : PaymentEventData) (account : AccountRecord) (availableId : String) (hstage : stage.claimed) :
    (creditInbound ctx draft data account availableId).Follows applying (Drafted eventId stage)
      ⟨eventId, stage⟩ := by
  unfold creditInbound
  refine drafted_of_plain (plain_ask ⟨_, rfl⟩ (by simp)) hstage fun posted => ?_
  refine drafted_of_plain (plain_ask trivial (by simp)) hstage fun id => ?_
  refine drafted_of_plain (plain_ask trivial (by simp)) hstage fun stored => ?_
  refine drafted_of_plain (plain_ask trivial (by simp)) hstage fun _ => ?_
  exact drafted_of_plain (plain_ask trivial (by simp)) hstage fun _ => rfl

theorem receiveInbound_follows {ctx : ApplyContext} (hctx : ctx.eventId = some eventId)
    (draft : CanonicalEventDraft) (data : PaymentEventData) (hstage : stage.claimed) :
    (receiveInbound ctx draft data).Follows applying (Drafted eventId stage) ⟨eventId, stage⟩ := by
  unfold receiveInbound
  cases data.providerAccountId with
  | none => exact rfl
  | some providerAccountId =>
    refine drafted_of_plain (plain_ask trivial (by simp)) hstage fun account => ?_
    cases account with
    | none => exact rfl
    | some account =>
      cases hl : account.ledgerAvailableAccountId with
      | none => simp only [hl]; exact rfl
      | some availableId =>
        simp only [hl]
        have hrest : ∀ duplicate, (creditOnce ctx draft data account availableId duplicate).Follows
            applying (Drafted eventId stage) ⟨eventId, stage⟩ := by
          intro duplicate
          cases duplicate with
          | none => exact creditInbound_follows ctx draft data account availableId hstage
          | some _ => exact recorded_of_marked (onDuplicate_follows hctx _ hstage)
        cases data.endToEndId with
        | none => exact hrest none
        | some endToEndId => exact drafted_of_plain (plain_ask trivial (by simp)) hstage hrest

theorem applyDraft_follows {ctx : ApplyContext} (hctx : ctx.eventId = some eventId)
    (draft : CanonicalEventDraft) (hstage : stage.claimed) :
    (applyDraft ctx draft).Follows applying (Drafted eventId stage) ⟨eventId, stage⟩ := by
  unfold applyDraft
  cases draft.subject with
  | account transitionTo =>
    unfold applyAccount
    refine drafted_of_plain (plain_ask trivial (by simp)) hstage fun account => ?_
    cases account with
    | none => exact rfl
    | some account =>
      refine drafted_of_plain (plain_ask trivial (by simp)) hstage fun result => ?_
      cases result with
      | applied record => exact rfl
      | rejected reason current =>
        exact recorded_of_marked (handleRejection_follows hctx "account" account.id reason hstage)
  | transaction transitionTo data =>
    unfold applyTransaction
    refine drafted_of_plain (findTransaction_plain ctx draft data) hstage fun found => ?_
    cases found with
    | some existing => exact applyToExisting_follows hctx draft data _ existing hstage
    | none =>
      dsimp only
      split
      · exact rfl
      · exact receiveInbound_follows hctx draft data hstage

/-- How the application of all drafts leaves the event. -/
def Concluded (eventId : String) (stage : Stage) (h : Application) :
    Except Thrown ApplyDraftsResult → Prop
  | .ok result =>
    if result.lockLost then h.eventId = eventId ∧ (h.stage = .settled ∨ h.stage = .broken)
    else h.eventId = eventId ∧ h.stage.claimed ∧
      (.recorded ∈ result.outcomes ∨ stage = .settled → h.stage = .settled)
  | .error _ => h = ⟨eventId, .broken⟩

/-- How one draft under its lock leaves the event. -/
def Locked (eventId : String) (stage : Stage) (h : Application) :
    Except Thrown (Option DraftOutcome) → Prop
  | .ok none => h.eventId = eventId ∧ (h.stage = .settled ∨ h.stage = .broken)
  | .ok (some outcome) => Drafted eventId stage h (.ok outcome)
  | .error e => Drafted eventId stage h (.error e)

theorem drafted_stage {h : Application} {r : Except Thrown DraftOutcome} (hr : Drafted eventId stage h r)
    (hstage : stage.claimed) : h.stage.claimed ∨ h.stage = .broken := by
  match r with
  | .ok .recorded => exact .inl (by rw [show h = _ from hr]; trivial)
  | .ok .applied | .ok .ignored => exact .inl (by rw [show h = _ from hr]; exact hstage)
  | .error _ => exact .inr (by rw [show h = _ from hr])

theorem release_same {h : Application} (hstage : h.stage.claimed ∨ h.stage = .broken) (key : String) :
    applying.guar h (.lockRelease key) ∧ ∀ x, applying.next h (.lockRelease key) x = h := by
  obtain ⟨id, stage⟩ := h
  cases stage with
  | owner | settled | broken => exact ⟨trivial, fun _ => rfl⟩
  | queued | lost => simp [Stage.claimed] at hstage

theorem lockRun_follows {key : String} {body : Flow DraftOutcome} (hstage : stage.claimed)
    (hbody : body.Follows applying (Drafted eventId stage) ⟨eventId, stage⟩) :
    (lockRun key body).Follows applying (Locked eventId stage) ⟨eventId, stage⟩ := by
  have hguar : ∀ q : Call, Working eventId q → applying.guar ⟨eventId, stage⟩ q := by
    intro q hq
    cases stage <;> first | exact hq | trivial
  have hlost : ∀ r : Except Thrown Bool, r ≠ .ok true →
      Locked eventId stage (applying.next ⟨eventId, stage⟩ (.lockAcquire key) r) (.ok none) := by
    intro r hr
    cases stage with
    | owner =>
      match r with
      | .error _ => exact ⟨rfl, .inr rfl⟩
      | .ok false => exact ⟨rfl, .inr rfl⟩
      | .ok true => exact absurd rfl hr
    | settled =>
      match r with
      | .error _ => exact ⟨rfl, .inl rfl⟩
      | .ok false => exact ⟨rfl, .inl rfl⟩
      | .ok true => exact absurd rfl hr
    | _ => exact hstage.elim
  unfold lockRun
  refine Prog.follows_perform_attempt_bind.mpr ⟨hguar _ trivial, fun r _ => ?_⟩
  match r with
  | .error e => exact hlost (.error e) (by simp)
  | .ok false => exact hlost (.ok false) (by simp)
  | .ok true =>
    have hheld : applying.next ⟨eventId, stage⟩ (.lockAcquire key) (.ok true) = ⟨eventId, stage⟩ := by
      cases stage <;> rfl
    rw [hheld]
    refine Prog.follows_bind.mpr (Prog.follows_attempt.mpr (Prog.follows_mono (fun h r hr => ?_) hbody))
    rw [onResult_ok]
    have hrelease : applying.guar h (.lockRelease key) ∧
        ∀ x, applying.next h (.lockRelease key) x = h := release_same (drafted_stage hr hstage) key
    refine Prog.follows_perform_attempt_bind.mpr ⟨hrelease.1, fun x _ => ?_⟩
    rw [hrelease.2 x]
    cases r <;> exact hr

theorem applyDrafts_follows {ctx : ApplyContext} (hctx : ctx.eventId = some eventId)
    (drafts : List CanonicalEventDraft) (hstage : stage.claimed) :
    (applyDrafts ctx drafts).Follows applying (Concluded eventId stage) ⟨eventId, stage⟩ := by
  induction drafts generalizing stage with
  | nil => exact ⟨rfl, hstage, fun h => h.elim (fun h => by cases h) id⟩
  | cons draft drafts ih =>
    unfold applyDrafts
    refine Prog.follows_bind.mpr (Prog.follows_mono (fun h r hr => ?_)
      (lockRun_follows hstage (applyDraft_follows hctx draft hstage)))
    obtain e | _ | outcome := r
    · exact hr
    · exact hr
    · have hnext : ∃ stage', h = ⟨eventId, stage'⟩ ∧ stage'.claimed ∧
          (outcome = .recorded ∨ stage = .settled → stage' = .settled) := by
        cases outcome with
        | recorded => exact ⟨.settled, hr, trivial, fun _ => rfl⟩
        | applied => exact ⟨stage, hr, hstage, fun h => h.elim (fun h => by cases h) id⟩
        | ignored => exact ⟨stage, hr, hstage, fun h => h.elim (fun h => by cases h) id⟩
      obtain ⟨stage', rfl, hclaimed, hsettled⟩ := hnext
      refine Prog.follows_bind.mpr (Prog.follows_mono (fun h r hr => ?_) (ih hclaimed))
      cases r with
      | error e => exact hr
      | ok rest =>
        obtain ⟨outcomes, lockLost⟩ := rest
        cases lockLost with
        | true => exact hr
        | false =>
          obtain ⟨hid, hcl, himp⟩ := hr
          refine ⟨hid, hcl, fun hout => himp ?_⟩
          obtain hmem | hs := hout
          · obtain hm | hm := List.mem_cons.mp hmem
            · exact .inr (hsettled (.inl hm.symm))
            · exact .inl hm
          · exact .inr (hsettled (.inr hs))

/-- How the application of a claimed event ends: with its outcome written down,
or broken off. -/
def Finished (h : Application) : Except Thrown Unit → Prop
  | .ok _ => h.stage ≠ .owner
  | .error _ => h.stage = .broken

theorem applyEvent_follows (event : InboundEventRecord) :
    (applyEvent event).Follows applying Finished ⟨event.id, .owner⟩ := by
  have hprocessed : ∀ stage : Stage, stage.claimed →
      (ask (.eventMarkProcessed event.id)).Follows applying Finished ⟨event.id, stage⟩ := by
    intro stage hstage
    cases stage with
    | owner | settled =>
      refine Prog.follows_perform.mpr ⟨rfl, fun r _ => ?_⟩
      cases r with
      | ok _ => exact fun h => by cases h
      | error _ => exact rfl
    | _ => exact hstage.elim
  have hdiscarded : ∀ (stage : Stage) (reason : String), stage.claimed →
      (ask (.eventMarkDiscarded event.id reason)).Follows applying Finished ⟨event.id, stage⟩ := by
    intro stage reason hstage
    cases stage with
    | owner | settled =>
      refine Prog.follows_perform.mpr ⟨rfl, fun r _ => ?_⟩
      cases r with
      | ok _ => exact fun h => by cases h
      | error _ => exact rfl
    | _ => exact hstage.elim
  have hnow : ∀ stage : Stage, stage.claimed → (do
      let _ ← ask .now
      ask (.eventMarkProcessed event.id) : Flow Unit).Follows applying Finished ⟨event.id, stage⟩ := by
    intro stage hstage
    obtain ⟨hguar, hok, herror⟩ := drafting_call event.id (q := .now) hstage trivial (by simp)
    refine Prog.follows_perform_bind.mpr ⟨hguar, fun now _ => ?_, fun e _ => by rw [herror e]; rfl⟩
    rw [hok now]
    exact hprocessed stage hstage
  unfold applyEvent
  refine Prog.follows_perform_bind.mpr ⟨trivial, fun bound _ => ?_, fun _ _ => rfl⟩
  have howner : applying.next ⟨event.id, .owner⟩ (.providerResolve event.connectionId) (.ok bound) =
      ⟨event.id, .owner⟩ := rfl
  rw [howner]
  split
  · exact hnow .owner trivial
  · refine Prog.follows_bind.mpr (Prog.follows_mono (fun h r hr => ?_)
      (applyDrafts_follows (show _ = some event.id from rfl) event.payload
        (show Stage.owner.claimed from trivial)))
    cases r with
    | error e => exact congrArg Application.stage hr
    | ok result =>
      rw [onResult_ok]
      obtain ⟨outcomes, lockLost⟩ := result
      obtain ⟨id, stage⟩ := h
      cases lockLost with
      | true =>
        obtain ⟨hid, hst⟩ := hr
        obtain hst | hst := hst <;> cases hst
        · refine Prog.follows_perform.mpr ⟨trivial, fun r _ => ?_⟩
          cases r with
          | ok _ => exact fun h => by cases h
          | error _ => exact rfl
        · exact Prog.follows_perform.mpr ⟨trivial,
            fun r _ => by cases r <;> simp [Finished, applying, next, Stage.next]⟩
      | false =>
        obtain ⟨hid, hclaimed, himp⟩ := hr
        cases hid
        simp only [Bool.false_eq_true, if_false]
        split
        · exact hnow stage hclaimed
        · split
          · exact hdiscarded stage _ hclaimed
          · next hrec =>
            have hs : stage = .settled := himp (.inl (by simpa using hrec))
            exact fun h => by cases hs.symm.trans h

theorem apply_follows : (apply eventId).Follows applying Released ⟨eventId, .queued⟩ := by
  unfold apply
  refine Prog.follows_perform_bind.mpr ⟨.inl rfl, fun stored hstored => ?_, fun _ _ h => by cases h⟩
  cases stored with
  | none => exact fun h => by cases h
  | some event =>
    have hid : event.id = eventId := hstored
    subst hid
    refine Prog.follows_perform_bind.mpr ⟨.inr rfl, fun won _ => ?_, fun _ _ h => by cases h⟩
    cases won with
    | false => exact fun h => by cases h
    | true =>
      refine Prog.follows_bind.mpr (Prog.follows_attempt.mpr
        (Prog.follows_mono (fun h r hr => ?_) (applyEvent_follows event)))
      rw [onResult_ok]
      cases r with
      | ok _ => exact hr
      | error e =>
        obtain ⟨id, stage⟩ := h
        cases hr
        refine Prog.follows_perform_bind.mpr ⟨trivial, fun _ _ => ?_, fun _ _ h => by cases h⟩
        split <;> exact fun h => by cases h

end BaasConnector.Webhooks.Pipeline
