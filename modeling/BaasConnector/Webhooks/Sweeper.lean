import BaasConnector.Pix.HoldResolution
import BaasConnector.Webhooks.Pipeline

namespace BaasConnector.Webhooks.Sweeper

open BaasConnector.Lib.Effects BaasConnector.Lib.Keyed BaasConnector.Taxonomy.Errors
open BaasConnector.Connector.Records BaasConnector.Connector.Calls BaasConnector.Connector.Database
open BaasConnector.Connector.Replies BaasConnector.Webhooks.Apply BaasConnector.Webhooks.Footprint
open BaasConnector.Webhooks.Pipeline BaasConnector.Pix.HoldResolution

def staleAfterMs : Int := 60000

/-- The events that the sweeper puts back into the queue. -/
def findStale (olderThan : Int) (event : InboundEventRecord) : Bool :=
  (event.status == .RECEIVED || event.status == .PROCESSING) && event.receivedAt ≤ olderThan

def terminal : InboundEventStatus → Bool
  | .PROCESSED | .DISCARDED | .DEAD_LETTER => true
  | .RECEIVED | .PROCESSING | .FAILED => false

abbrev Events := Pool Call Answer Thrown Unit Application World

def applications : System Call Answer Thrown Unit Application World where
  env := env
  next := next
  start h p := ∃ eventId, h = ⟨eventId, .queued⟩ ∧ p = apply eventId
  allowed _ _ := True

/-- An event is accepted, or an application of some event, which the intake, the
sweeper and a lost lock put into the queue, moves. -/
inductive Step : Events → Events → Prop
  | accept {s : Events} (event : InboundEventRecord) (hnew : s.world.events.get event.id = none)
      (hstatus : event.status = .RECEIVED) :
      Step s ⟨{ s.world with events := s.world.events.put event }, s.threads⟩
  | move {s s' : Events} (hmove : applications.Step s s') : Step s s'

/-- The compare and set of an application would take the event up. -/
def Claimable (w : World) (eventId : String) : Prop :=
  ∃ w', env w (.eventMarkProcessing eventId) (.ok true) w'

/-- An application of the event has come this far and is still to make a call. -/
def Under (s : Events) (application : Application) : Prop :=
  ∃ i q k, s.threads i = some (application, .call q k)

/-- The sweeper would queue the event again once it is old, or it is queued, and
then it is taken up; or it is being applied. -/
def CanApply (s : Events) (event : InboundEventRecord) : Prop :=
  (Claimable s.world event.id ∧
      ((∃ now, findStale (now - staleAfterMs) event = true) ∨ Under s ⟨event.id, .queued⟩)) ∨
    Under s ⟨event.id, .owner⟩

def NotStranded (s : Events) : Prop :=
  ∀ id event, s.world.events.get id = some event → terminal event.status = false → CanApply s event

/-- No application that has claimed its event is lost, denied a lock or failed. -/
def Undisturbed (s s' : Events) : Prop :=
  (∀ i id, s.histories i = some ⟨id, .owner⟩ → s'.histories i ≠ none) ∧
    ∀ i h, s'.histories i = some h → h.stage ≠ .broken

variable {w w' : World} {g : Nat → Option Application} {id : String} {stage stage' : Stage} {i : Nat}

/-- A claimed event has an application that goes on with it, and none has failed. -/
structure Attended (w : World) (g : Nat → Option Application) : Prop where
  unfailed : ∀ id event, w.events.get id = some event → event.status ≠ .FAILED
  owned : ∀ id event, w.events.get id = some event → event.status = .PROCESSING →
    ∃ i, g i = some ⟨id, .owner⟩
  unbroken : ∀ i h, g i = some h → h.stage ≠ .broken

theorem markProcessing_cases {r : Except Thrown Bool} (h : env w (.eventMarkProcessing id) r w') :
    (r ≠ .ok true ∧ w'.events = w.events) ∨
      (r = .ok true ∧ ∃ event : InboundEventRecord, event.id = id ∧ event.status = .PROCESSING ∧
        w'.events = w.events.put event) := by
  obtain ⟨_, ⟨_, rfl⟩, rfl⟩ | ⟨c, _, hc⟩ := env_iff.mp h
  · exact .inl ⟨by simp, rfl⟩
  unfold respond at hc
  simp only [World.markProcessing] at hc
  cases hg : w.events.get id with
  | none =>
    simp only [hg, reply, Option.some.injEq, Prod.mk.injEq] at hc
    exact .inl ⟨by simp [← hc.1], by rw [hc.2]⟩
  | some event =>
    have hkey : event.id = id := Rows.key_of_get hg
    simp only [hg, reply] at hc
    split at hc <;> simp only [Option.some.injEq, Prod.mk.injEq] at hc
    · exact .inr ⟨hc.1.symm, { event with status := .PROCESSING, attempts := event.attempts + 1 },
        hkey, rfl, by rw [← hc.2]⟩
    · exact .inl ⟨by simp [← hc.1], by rw [hc.2]⟩

theorem updateEvent_cases {f : InboundEventRecord → InboundEventRecord} {r : Except Thrown Unit}
    (h : w.updateEvent id f = some (r, w')) :
    ((∃ e, r = .error e) ∧ w'.events = w.events) ∨
      (r = .ok () ∧ ∃ event : InboundEventRecord, event.id = id ∧
        w'.events = w.events.put (f event)) := by
  unfold World.updateEvent at h
  cases hg : w.events.get id with
  | none =>
    simp only [hg, refuse, Option.some.injEq, Prod.mk.injEq] at h
    exact .inl ⟨⟨_, h.1.symm⟩, by rw [h.2]⟩
  | some event =>
    simp only [hg, reply, Option.some.injEq, Prod.mk.injEq] at h
    have hid : event.id = _ := Rows.key_of_get hg
    exact .inr ⟨h.1.symm, event, hid, by rw [← h.2]⟩

/-- The writes of an outcome store a terminal status, or fail. -/
theorem markProcessed_cases {r : Except Thrown Unit} (h : env w (.eventMarkProcessed id) r w') :
    ((∃ e, r = .error e) ∧ w'.events = w.events) ∨
      (r = .ok () ∧ ∃ event : InboundEventRecord, event.id = id ∧ terminal event.status = true ∧
        w'.events = w.events.put event) := by
  obtain ⟨_, ⟨_, rfl⟩, rfl⟩ | ⟨c, _, hc⟩ := env_iff.mp h
  · exact .inl ⟨⟨_, rfl⟩, rfl⟩
  · exact (updateEvent_cases hc).imp_right fun ⟨hr, event, hid, hw⟩ =>
      ⟨hr, { event with status := .PROCESSED }, hid, rfl, hw⟩

theorem markDiscarded_cases {reason : String} {r : Except Thrown Unit}
    (h : env w (.eventMarkDiscarded id reason) r w') :
    ((∃ e, r = .error e) ∧ w'.events = w.events) ∨
      (r = .ok () ∧ ∃ event : InboundEventRecord, event.id = id ∧ terminal event.status = true ∧
        w'.events = w.events.put event) := by
  obtain ⟨_, ⟨_, rfl⟩, rfl⟩ | ⟨c, _, hc⟩ := env_iff.mp h
  · exact .inl ⟨⟨_, rfl⟩, rfl⟩
  · exact (updateEvent_cases hc).imp_right fun ⟨hr, event, hid, hw⟩ =>
      ⟨hr, { event with status := .DISCARDED, lastError := some reason }, hid, rfl, hw⟩

/-- The stored events stay, and an application that has its event keeps it. -/
theorem attended_same (ha : Attended w g) (hi : g i = some ⟨id, stage⟩) (hw : w'.events = w.events)
    (howner : stage = .owner → stage' = .owner) (hbroken : stage' ≠ .broken) :
    Attended w' (Function.update g i (some ⟨id, stage'⟩)) where
  unfailed := by rw [hw]; exact ha.unfailed
  owned id' event hget hstatus := by
    rw [hw] at hget
    obtain ⟨j, hj⟩ := ha.owned id' event hget hstatus
    by_cases hji : j = i
    · subst hji
      rw [hi, Option.some.injEq, Application.mk.injEq] at hj
      exact ⟨j, by rw [Function.update_self, hj.1, howner hj.2]⟩
    · exact ⟨j, by rw [Function.update_of_ne hji]; exact hj⟩
  unbroken j h hj := by
    by_cases hji : j = i
    · subst hji
      rw [Function.update_self, Option.some.injEq] at hj
      rw [← hj]
      exact hbroken
    · rw [Function.update_of_ne hji] at hj
      exact ha.unbroken j h hj

/-- One row is written, as claimed by the application that holds it or as settled. -/
theorem attended_put (ha : Attended w g) (hi : g i = some ⟨id, stage⟩) {event : InboundEventRecord}
    (hid : event.id = id) (hw : w'.events = w.events.put event) (hfailed : event.status ≠ .FAILED)
    (howner : event.status = .PROCESSING → stage' = .owner) (hbroken : stage' ≠ .broken) :
    Attended w' (Function.update g i (some ⟨id, stage'⟩)) where
  unfailed id' event' hget := by
    rw [hw, Rows.get_put] at hget
    split at hget
    · cases hget
      exact hfailed
    · exact ha.unfailed id' event' hget
  owned id' event' hget hstatus := by
    rw [hw, Rows.get_put] at hget
    split at hget
    · next hkey =>
      cases hget
      exact ⟨i, by rw [Function.update_self, hkey, hid, howner hstatus]⟩
    · next hkey =>
      obtain ⟨j, hj⟩ := ha.owned id' event' hget hstatus
      have hji : j ≠ i := by
        rintro rfl
        rw [hi, Option.some.injEq, Application.mk.injEq] at hj
        exact hkey (hj.1.symm.trans hid.symm)
      exact ⟨j, by rw [Function.update_of_ne hji]; exact hj⟩
  unbroken j h hj := by
    by_cases hji : j = i
    · subst hji
      rw [Function.update_self, Option.some.injEq] at hj
      rw [← hj]
      exact hbroken
    · rw [Function.update_of_ne hji] at hj
      exact ha.unbroken j h hj

theorem owner_stays {q : Call} {r : Except Thrown (Answer q)} (hq : Call.touchesEvents q = false)
    (hbroken : Stage.next .owner q r ≠ .broken) : Stage.next .owner q r = .owner := by
  cases q with
  | lockAcquire key =>
    match r with
    | .ok true => rfl
    | .ok false => exact absurd rfl hbroken
    | .error _ => exact absurd rfl hbroken
  | lockRelease key => rfl
  | _ =>
    cases r with
    | ok a => first | rfl | cases hq
    | error e => exact absurd rfl hbroken

/-- A step of an application that claims or works on its event. -/
theorem attended_call {q : Call} {r : Except Thrown (Answer q)} (ha : Attended w g)
    (hi : g i = some ⟨id, stage⟩) (hguar : guar ⟨id, stage⟩ q) (henv : env w q r w')
    (hbroken : stage.next q r ≠ .broken) :
    Attended w' (Function.update g i (some ⟨id, stage.next q r⟩)) := by
  have hsettled : ∀ {r : Except Thrown Unit} {stage' : Stage}, stage' ≠ .broken →
      (∀ e, r = .error e → stage' = .broken) →
      (((∃ e, r = .error e) ∧ w'.events = w.events) ∨
        (r = .ok () ∧ ∃ event : InboundEventRecord, event.id = id ∧ terminal event.status = true ∧
          w'.events = w.events.put event)) →
      Attended w' (Function.update g i (some ⟨id, stage'⟩)) := by
    intro r stage' hb herror hcases
    obtain ⟨⟨e, hr⟩, _⟩ | ⟨_, event, hid, hterm, hw⟩ := hcases
    · exact absurd (herror e hr) hb
    · refine attended_put ha hi hid hw (fun h => ?_) (fun h => ?_) hb
      · rw [h] at hterm
        cases hterm
      · rw [h] at hterm
        cases hterm
  have hmarks : Working id q → ¬ Call.touchesEvents q = false → (∀ e, stage.next q (.error e) = .broken) →
      Attended w' (Function.update g i (some ⟨id, stage.next q r⟩)) := by
    intro hworking hq herror
    cases q with
    | eventMarkProcessed id' =>
      cases hworking
      exact hsettled hbroken (fun e he => by rw [he]; exact herror e) (markProcessed_cases henv)
    | eventMarkDiscarded id' reason =>
      cases hworking
      exact hsettled hbroken (fun e he => by rw [he]; exact herror e) (markDiscarded_cases henv)
    | eventMarkProcessing | eventMarkFailed => exact hworking.elim
    | _ => exact absurd rfl hq
  cases stage with
  | queued =>
    obtain rfl | rfl := hguar
    · exact attended_same ha hi (env_events rfl henv) (fun h => by cases h) (fun h => by cases h)
    · obtain ⟨hr, hw⟩ | ⟨rfl, event, hid, hstatus, hw⟩ := markProcessing_cases henv
      · refine attended_same ha hi hw (fun h => by cases h) hbroken
      · exact attended_put ha hi hid hw (by rw [hstatus]; simp) (fun _ => rfl) hbroken
  | owner =>
    by_cases hq : Call.touchesEvents q = false
    · exact attended_same ha hi (env_events hq henv) (fun _ => owner_stays hq hbroken) hbroken
    · exact hmarks hguar hq fun e => by cases q <;> first | rfl | exact absurd rfl hq
  | settled =>
    by_cases hq : Call.touchesEvents q = false
    · exact attended_same ha hi (env_events hq henv) (fun h => by cases h) hbroken
    · exact hmarks hguar hq fun e => by cases q <;> first | rfl | exact absurd rfl hq
  | lost => exact hguar.elim
  | broken => exact absurd rfl (ha.unbroken i _ hi)

variable {s s' : Events}

theorem attended_maintained :
    applications.Maintains applying Released Undisturbed Attended where
  next := rfl
  start := by
    rintro h p ⟨eventId, rfl, rfl⟩
    exact apply_follows
  spawn := by
    rintro s i h p ha hfree ⟨eventId, rfl, rfl⟩
    have hi : s.histories i = none := by simp [Pool.histories, hfree]
    refine ⟨ha.unfailed, fun id event hget hstatus => ?_, fun j h hj => ?_⟩
    · obtain ⟨j, hj⟩ := ha.owned id event hget hstatus
      have hji : j ≠ i := by
        rintro rfl
        rw [hi] at hj
        cases hj
      exact ⟨j, by rw [Function.update_of_ne hji]; exact hj⟩
    · by_cases hji : j = i
      · subst hji
        rw [Function.update_self, Option.some.injEq] at hj
        rw [← hj]
        exact fun h => by cases h
      · rw [Function.update_of_ne hji] at hj
        exact ha.unbroken j h hj
  drop := by
    intro s i ha hok
    rw [Undisturbed, Pool.histories_update] at hok
    refine ⟨ha.unfailed, fun id event hget hstatus => ?_, hok.2⟩
    obtain ⟨j, hj⟩ := ha.owned id event hget hstatus
    have hji : j ≠ i := by
      rintro rfl
      exact hok.1 j id hj (Function.update_self ..)
    exact ⟨j, by rw [Function.update_of_ne hji]; exact hj⟩
  call := by
    intro s i h q k r w' ha hi _ hguar henv hok
    have hg : s.histories i = some h := by simp [Pool.histories, hi]
    have hnext : (next h q r).stage ≠ .broken := by
      rw [Undisturbed, Pool.histories_update] at hok
      exact hok.2 i _ (Function.update_self ..)
    refine ⟨?_, attended_call ha hg hguar henv hnext⟩
    cases q with
    | eventFindById id =>
      obtain ⟨_, ⟨_, rfl⟩, _⟩ | ⟨c, _, hc⟩ := env_iff.mp henv
      · trivial
      · unfold respond at hc
        simp only [reply, Option.some.injEq, Prod.mk.injEq] at hc
        rw [← hc.1]
        cases hget : s.world.events.get id with
        | none => trivial
        | some event => exact show event.id = _ from Rows.key_of_get hget
    | _ => trivial

/-- A call of a thread is to be made, as an event of its own stage is not given back. -/
theorem under_of_owner (hends : System.Ends applying Released s) {i : Nat} {id : String}
    (hi : s.histories i = some ⟨id, .owner⟩) : Under s ⟨id, .owner⟩ := by
  obtain ⟨⟨h, p⟩, hp, rfl⟩ := Option.map_eq_some_iff.mp hi
  have hf := hends i _ p hp
  cases p with
  | pure a => exact absurd rfl hf
  | throw e => exact absurd rfl hf
  | call q k => exact ⟨i, q, k, hp⟩

/-- A start without applications, where every event is new or has its outcome. -/
structure Idle (s : Events) : Prop where
  idle : s.threads = fun _ => none
  settled : ∀ id event, s.world.events.get id = some event →
    event.status = .RECEIVED ∨ terminal event.status = true

theorem claimable_iff {w : World} {event : InboundEventRecord} (hget : w.events.get event.id = some event) :
    Claimable w event.id ↔ event.status = .RECEIVED ∨ event.status = .FAILED := by
  constructor
  · rintro ⟨w', henv⟩
    obtain ⟨_, ⟨_, h⟩, _⟩ | ⟨c, _, hc⟩ := env_iff.mp henv
    · cases h
    · by_contra hn
      unfold respond at hc
      simp [World.markProcessing, hget, hn, reply] at hc
  · intro hstatus
    have hr : ∃ w', respond {} (.eventMarkProcessing event.id) w = some (.ok true, w') := by
      unfold respond
      simp only [World.markProcessing, hget]
      rw [if_pos hstatus]
      exact ⟨_, rfl⟩
    obtain ⟨w', hr⟩ := hr
    exact ⟨w', env_iff.mpr (.inr ⟨{}, rfl, hr⟩)⟩

/-- In every run in which no application is disturbed while it has an event, no
event is stranded. -/
theorem no_event_stranded {s₀ s : Events} (hidle : Idle s₀)
    (hs : Relation.ReflTransGen (fun s s' => Step s s' ∧ Undisturbed s s') s₀ s) : NotStranded s := by
  have hkept : System.Ends applying Released s ∧ Attended s.world s.histories := by
    induction hs with
    | refl =>
      refine ⟨fun i h p hi => by simp [hidle.idle] at hi, fun id event hget hstatus => ?_,
        fun id event hget hstatus => ?_, fun i h hi => by simp [Pool.histories, hidle.idle] at hi⟩
      · have := hidle.settled id event hget
        simp [hstatus, terminal] at this
      · have := hidle.settled id event hget
        simp [hstatus, terminal] at this
    | tail _ hstep ih =>
      obtain ⟨hends, ha⟩ := ih
      obtain ⟨hstep, hok⟩ := hstep
      cases hstep with
      | move hmove => exact attended_maintained.step hmove hok hends ha
      | accept event hnew hstatus =>
        refine ⟨hends, fun id e hget => ?_, fun id e hget he => ?_, ha.unbroken⟩
        · rw [Rows.get_put] at hget
          split at hget
          · cases hget
            rw [hstatus]
            simp
          · exact ha.unfailed id e hget
        · rw [Rows.get_put] at hget
          split at hget
          · cases hget
            rw [hstatus] at he
            cases he
          · exact ha.owned id e hget he
  obtain ⟨hends, ha⟩ := hkept
  intro id event hget hterm
  have hid : event.id = id := Rows.key_of_get hget
  subst hid
  cases hstatus : event.status with
  | RECEIVED =>
    refine .inl ⟨(claimable_iff hget).mpr (.inl hstatus), .inl ⟨event.receivedAt + staleAfterMs, ?_⟩⟩
    simp [findStale, hstatus]
  | PROCESSING =>
    obtain ⟨i, hi⟩ := ha.owned _ event hget hstatus
    exact .inr (under_of_owner hends hi)
  | FAILED => exact absurd hstatus (ha.unfailed _ event hget)
  | PROCESSED | DISCARDED | DEAD_LETTER => simp [hstatus, terminal] at hterm

section Sample

def sampleEvent : InboundEventRecord :=
  { id := "ibe_1", connectionId := "con_1", payload := [], receivedAt := 1000, status := .RECEIVED
    attempts := 0, lastError := none }

def emptyPool : Events := ⟨sampleWorld fundedLedger, fun _ => none⟩

theorem emptyPool_idle : Idle emptyPool := ⟨rfl, fun _ _ h => by cases h⟩

def received : World := { sampleWorld fundedLedger with events := Rows.empty.put sampleEvent }

def claimedEvent : InboundEventRecord := { sampleEvent with status := .PROCESSING, attempts := 1 }

def claimed : World := { received with events := received.events.put claimedEvent }

/-- One application and nothing beside it. -/
def alone (w : World) (h : Application) (p : Flow Unit) : Events :=
  ⟨w, Function.update (fun _ => none) 0 (some (h, p))⟩

theorem alone_step {w w' : World} {h : Application} {q : Call} {k : Except Thrown (Answer q) → Flow Unit}
    {r : Except Thrown (Answer q)} (henv : env w q r w') :
    Step (alone w h (.call q k)) (alone w' (next h q r) (k r)) := by
  have hstep : applications.Step (alone w h (.call q k)) _ := .resume 0 rfl trivial henv
  rw [alone, Function.update_idem] at hstep
  exact .move hstep

theorem alone_undisturbed {w w' : World} {h h' : Application} {p p' : Flow Unit}
    (hh : h.stage ≠ .owner) (hh' : h'.stage ≠ .broken) : Undisturbed (alone w h p) (alone w' h' p') := by
  have hone : ∀ (w : World) (h g : Application) (p : Flow Unit) (j : Nat),
      (alone w h p).histories j = some g → g = h := by
    intro w h g p j hj
    rw [alone, Pool.histories_update] at hj
    by_cases hj0 : j = 0
    · subst hj0
      rw [Function.update_self] at hj
      exact (Option.some.inj hj).symm
    · rw [Function.update_of_ne hj0] at hj
      cases hj
  refine ⟨fun j id hj => ?_, fun j g hj => ?_⟩
  · exact absurd (hone w h _ p j hj ▸ rfl) hh
  · exact hone w' h' g p' j hj ▸ hh'

/-- The sample event is accepted, queued and claimed. -/
theorem claimed_reached : ∃ p, Relation.ReflTransGen (fun s s' => Step s s' ∧ Undisturbed s s')
    emptyPool (alone claimed ⟨"ibe_1", .owner⟩ p) := by
  have hfirst : Undisturbed emptyPool ⟨received, fun _ => none⟩ :=
    ⟨fun _ _ h => by (cases h), fun _ _ h => by cases h⟩
  have hsecond : Undisturbed ⟨received, fun _ => none⟩
    (alone received ⟨"ibe_1", .queued⟩ (apply "ibe_1")) := by
    refine ⟨fun _ _ h => by (cases h), fun j g hj => ?_⟩
    exact (alone_undisturbed (h := ⟨"ibe_1", .queued⟩) (p := apply "ibe_1") (w := received)
      (fun h => by cases h) (fun h => by cases h)).2 j g hj
  have hfind : ∃ k, Step (alone received ⟨"ibe_1", .queued⟩ (apply "ibe_1"))
      (alone received ⟨"ibe_1", .queued⟩ (.call (.eventMarkProcessing "ibe_1") k)) :=
    ⟨_, alone_step (show env received (.eventFindById "ibe_1") (.ok (some sampleEvent)) received
      from ⟨{}, rfl⟩)⟩
  obtain ⟨k, hfind⟩ := hfind
  have hclaim : Step (alone received ⟨"ibe_1", .queued⟩ (.call (.eventMarkProcessing "ibe_1") k))
      (alone claimed ⟨"ibe_1", .owner⟩ (k (.ok true))) :=
    alone_step (show env received (.eventMarkProcessing "ibe_1") (.ok true) claimed from ⟨{}, rfl⟩)
  exact ⟨k (.ok true), .head ⟨.accept sampleEvent rfl rfl, hfirst⟩
    (.head ⟨.move (.spawn 0 rfl ⟨"ibe_1", rfl, rfl⟩), hsecond⟩
    (.head ⟨hfind, alone_undisturbed (fun h => by cases h) (fun h => by cases h)⟩
    (.single ⟨hclaim, alone_undisturbed (fun h => by cases h) (fun h => by cases h)⟩)))⟩

/-- An event that is claimed is not stranded. -/
theorem no_event_stranded_claimed : ∃ p, NotStranded (alone claimed ⟨"ibe_1", .owner⟩ p) := by
  obtain ⟨p, hs⟩ := claimed_reached
  exact ⟨p, no_event_stranded emptyPool_idle hs⟩

/-- An application that dies with its event claimed leaves it to nobody: the
sweeper queues the event again, and no application takes it up. -/
theorem claimed_event_stranded :
    ¬ ∀ s₀ s : Events, Idle s₀ → Relation.ReflTransGen Step s₀ s → NotStranded s := by
  intro h
  obtain ⟨p, hs⟩ := claimed_reached
  have hrun : Relation.ReflTransGen Step emptyPool ⟨claimed, Function.update
      (alone claimed ⟨"ibe_1", .owner⟩ p).threads 0 none⟩ :=
    (Relation.ReflTransGen.mono (fun _ _ h => h.1) _ _ hs).tail (.move (.drop 0))
  have hget : claimed.events.get "ibe_1" = some claimedEvent := rfl
  obtain ⟨hc, _⟩ | ⟨i, q, k, hi⟩ := h _ _ emptyPool_idle hrun "ibe_1" claimedEvent hget rfl
  · obtain h | h := (claimable_iff hget).mp hc <;> cases h
  · simp only [alone, Function.update_idem] at hi
    by_cases hi0 : i = 0
    · simp [hi0] at hi
    · simp [hi0] at hi

end Sample

end BaasConnector.Webhooks.Sweeper
