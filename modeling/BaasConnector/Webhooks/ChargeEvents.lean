import BaasConnector.Lib.History
import BaasConnector.Taxonomy.Status

namespace BaasConnector.Webhooks.ChargeEvents

open BaasConnector.Lib.History BaasConnector.Taxonomy.Status

inductive PixChargeStatus
  | ACTIVE | COMPLETED | EXPIRED | REMOVED_BY_PSP | REMOVED_BY_USER
deriving DecidableEq, Repr

def pixChargeStatusTransitions : TransitionTable PixChargeStatus
  | .ACTIVE => [.COMPLETED, .EXPIRED, .REMOVED_BY_PSP, .REMOVED_BY_USER]
  | _ => []

def pixChargeStatusOf : String → Option PixChargeStatus
  | "ACTIVE" => some .ACTIVE
  | "COMPLETED" => some .COMPLETED
  | "EXPIRED" => some .EXPIRED
  | "REMOVED_BY_PSP" => some .REMOVED_BY_PSP
  | "REMOVED_BY_USER" => some .REMOVED_BY_USER
  | _ => none

structure PixChargeRecord where
  status : PixChargeStatus
  revision : Nat
  paidAmountCents : Int
  paidAt : Option Int
  lastEventAt : Option Int
deriving DecidableEq, Repr

/-- The draft of a charge event, and when it was received. -/
structure ChargeEvent where
  status : Option String
  paidAmount : Option Int
  occurredAt : Option Int
  receivedAt : Int
deriving DecidableEq, Repr

def ChargeEvent.instant (event : ChargeEvent) : Int := event.occurredAt.getD event.receivedAt

inductive Rejection
  | stale_timestamp | same_state | illegal_transition
deriving DecidableEq, Repr

/-- Both repositories, under the lock of the charge's row. -/
def applyStatusChange (charge : PixChargeRecord) (toStatus : PixChargeStatus)
    (paidAmountCents paidAt : Option Int)
    (occurredAt : Int) : Except Rejection PixChargeRecord :=
  if charge.lastEventAt.any fun last => decide (occurredAt < last) then .error .stale_timestamp
  else if charge.status = toStatus then .error .same_state
  else if (checkTransition pixChargeStatusTransitions charge.status toStatus).allowed = false then
    .error .illegal_transition
  else
    .ok { status := toStatus, revision := charge.revision + 1
          paidAmountCents := paidAmountCents.getD charge.paidAmountCents
          paidAt := paidAt.or charge.paidAt, lastEventAt := some occurredAt }

variable (toUpperCase : String → String)

/-- An unknown status has no canonical one. -/
def toChargeStatus : Option String → Option PixChargeStatus
  | some raw => if raw = "" then none else pixChargeStatusOf (toUpperCase raw)
  | none => none

def applyCharge (charge : PixChargeRecord) (event : ChargeEvent) : Except Rejection PixChargeRecord :=
  let incoming := (toChargeStatus toUpperCase event.status).getD .COMPLETED
  applyStatusChange charge incoming event.paidAmount
    (if incoming = .COMPLETED then some event.instant else none)
    event.instant

/-- The stored charge after an event. A rejected one leaves it as it is. -/
def storedAfter (charge : PixChargeRecord) (event : ChargeEvent) : PixChargeRecord :=
  match applyCharge toUpperCase charge event with
  | .ok stored => stored
  | .error _ => charge

def applyAll (charge : PixChargeRecord) (events : List ChargeEvent) : PixChargeRecord :=
  events.foldl (storedAfter toUpperCase) charge

/-- None of the events says a final status. -/
def NoneFinal (events : List ChargeEvent) : Prop :=
  ∀ event ∈ events, ∀ status, toChargeStatus toUpperCase event.status = some status → status = .ACTIVE

/-- The charge was completed, or was active and an event says so before any other
final status. -/
def SaysCompleted (charge : PixChargeRecord) (events : List ChargeEvent) : Prop :=
  charge.status = .COMPLETED ∨ charge.status = .ACTIVE ∧
    Once (fun before event => NoneFinal toUpperCase before ∧
      toChargeStatus toUpperCase event.status = some .COMPLETED) events

/-- The amount that the last event with one says. -/
def lastPaid (charge : PixChargeRecord) (events : List ChargeEvent) : Int :=
  events.foldl (fun paid event => event.paidAmount.getD paid) charge.paidAmountCents

/-- The charge follows its provider through the events. -/
structure Follows (charge : PixChargeRecord) (events : List ChargeEvent) : Prop where
  completed : ∀ before after, events = before ++ after →
    ((applyAll toUpperCase charge before).status = .COMPLETED ↔ SaysCompleted toUpperCase charge before)
  unrecognised : ∀ before event after, events = before ++ event :: after →
    toChargeStatus toUpperCase event.status = none →
      (applyAll toUpperCase charge (before ++ [event])).status = (applyAll toUpperCase charge before).status
  paid : ∀ before after, events = before ++ after → (applyAll toUpperCase charge before).status = .ACTIVE →
    (applyAll toUpperCase charge before).paidAmountCents = lastPaid charge before

/-- The charge is active, and so has every event said. -/
def StillOpen (charge : PixChargeRecord) (before : List ChargeEvent) : Prop :=
  charge.status = .ACTIVE ∧ ∀ event ∈ before, toChargeStatus toUpperCase event.status = some .ACTIVE

/-- While no final status was said, the event has a status that is recognised,
and one that says ACTIVE brings no other amount than the stored one. -/
def Plain (charge : PixChargeRecord) (before : List ChargeEvent) (event : ChargeEvent) : Prop :=
  StillOpen toUpperCase charge before → ∃ status, toChargeStatus toUpperCase event.status = some status ∧
    (status = .ACTIVE → ∀ paid, event.paidAmount = some paid → paid = charge.paidAmountCents)

/-- The events come after those that the charge has seen. -/
def After (charge : PixChargeRecord) (events : List ChargeEvent) : Prop :=
  ∀ event ∈ events, ∀ last, charge.lastEventAt = some last → last ≤ event.instant

variable {toUpperCase} {charge : PixChargeRecord} {events : List ChargeEvent} {event : ChargeEvent}

theorem applyAll_append (events : List ChargeEvent) (event : ChargeEvent) :
    applyAll toUpperCase charge (events ++ [event]) =
      storedAfter toUpperCase (applyAll toUpperCase charge events) event := by
  rw [applyAll, List.foldl_append]
  rfl

theorem lastPaid_append (events : List ChargeEvent) (event : ChargeEvent) :
    lastPaid charge (events ++ [event]) = event.paidAmount.getD (lastPaid charge events) := by
  rw [lastPaid, List.foldl_append]
  rfl

theorem allowed_iff {current target : PixChargeStatus} (hne : current ≠ target) :
    (checkTransition pixChargeStatusTransitions current target).allowed = true ↔ current = .ACTIVE := by
  cases current <;> cases target <;> simp_all [checkTransition, pixChargeStatusTransitions]

/-- Saying again what is stored changes nothing. -/
theorem storedAfter_same (h : (toChargeStatus toUpperCase event.status).getD .COMPLETED = charge.status) :
    storedAfter toUpperCase charge event = charge := by
  by_cases hstale : (charge.lastEventAt.any fun last => decide (event.instant < last)) = true
  · rw [storedAfter, applyCharge, applyStatusChange, if_pos hstale]
  · rw [storedAfter, applyCharge, applyStatusChange, if_neg hstale, if_pos h.symm]

/-- A final status stays. -/
theorem storedAfter_final (h : charge.status ≠ .ACTIVE) : storedAfter toUpperCase charge event = charge := by
  by_cases hsame : (toChargeStatus toUpperCase event.status).getD .COMPLETED = charge.status
  · exact storedAfter_same hsame
  · have hillegal := mt (allowed_iff (Ne.symm hsame)).mp h
    rw [Bool.not_eq_true] at hillegal
    by_cases hstale : (charge.lastEventAt.any fun last => decide (event.instant < last)) = true
    · rw [storedAfter, applyCharge, applyStatusChange, if_pos hstale]
    · rw [storedAfter, applyCharge, applyStatusChange, if_neg hstale, if_neg (Ne.symm hsame), if_pos hillegal]

theorem storedAfter_active (hactive : charge.status = .ACTIVE)
    (htime : ∀ last, charge.lastEventAt = some last → last ≤ event.instant)
    (hnew : (toChargeStatus toUpperCase event.status).getD .COMPLETED ≠ .ACTIVE) :
    (storedAfter toUpperCase charge event).status =
      (toChargeStatus toUpperCase event.status).getD .COMPLETED := by
  have hne : charge.status ≠ (toChargeStatus toUpperCase event.status).getD .COMPLETED := by
    rw [hactive]
    exact hnew.symm
  have hlegal := (allowed_iff hne).mpr hactive
  have hintime : ¬ (charge.lastEventAt.any fun last => decide (event.instant < last)) = true := by
    cases hlast : charge.lastEventAt with
    | none => exact Bool.false_ne_true
    | some last => simpa using htime last hlast
  have hallowed : ¬ (checkTransition pixChargeStatusTransitions charge.status
      ((toChargeStatus toUpperCase event.status).getD .COMPLETED)).allowed = false := by
    rw [hlegal]
    exact Bool.true_eq_false.mp
  rw [storedAfter, applyCharge, applyStatusChange, if_neg hintime, if_neg hne, if_neg hallowed]

/-- Until a final status is said, the stored charge is the one there was. -/
theorem applyAll_open (h : StillOpen toUpperCase charge events) :
    applyAll toUpperCase charge events = charge := by
  obtain ⟨hactive, hsaid⟩ := h
  induction events using List.reverseRecOn with
  | nil => rfl
  | append_singleton events event ih =>
    have hevent := hsaid event (List.mem_append_right events (List.mem_singleton_self event))
    rw [applyAll_append, ih fun event hmem => hsaid event (List.mem_append_left _ hmem)]
    apply storedAfter_same
    rw [hevent, hactive]
    rfl

theorem StillOpen.append (h : StillOpen toUpperCase charge events)
    (hevent : toChargeStatus toUpperCase event.status = some .ACTIVE) :
    StillOpen toUpperCase charge (events ++ [event]) := by
  refine ⟨h.1, fun other hmem => ?_⟩
  obtain hmem | hmem := List.mem_append.mp hmem
  · exact h.2 other hmem
  · rw [List.mem_singleton.mp hmem, hevent]

theorem StillOpen.noneFinal (h : StillOpen toUpperCase charge events) : NoneFinal toUpperCase events := by
  intro event hmem status hstatus
  rw [h.2 event hmem] at hstatus
  exact (Option.some.inj hstatus).symm

/-- What the condition keeps of the stored charge. -/
inductive Tracks (toUpperCase : String → String) (charge : PixChargeRecord) (events : List ChargeEvent) : Prop
  | still (hopen : StillOpen toUpperCase charge events)
      (hpaid : lastPaid charge events = charge.paidAmountCents)
  | final (hsaid : charge.status = .ACTIVE → ¬ NoneFinal toUpperCase events)
      (hfinal : (applyAll toUpperCase charge events).status ≠ .ACTIVE)
      (hcompleted : (applyAll toUpperCase charge events).status = .COMPLETED ↔
        SaysCompleted toUpperCase charge events)

theorem tracks_nil : Tracks toUpperCase charge [] := by
  by_cases hactive : charge.status = .ACTIVE
  · exact .still ⟨hactive, fun _ hmem => absurd hmem List.not_mem_nil⟩ rfl
  · refine .final (fun h => absurd h hactive) hactive ⟨.inl, fun h => ?_⟩
    exact h.elim id fun h => absurd h.1 hactive

theorem NoneFinal.left {more : List ChargeEvent} (h : NoneFinal toUpperCase (events ++ more)) :
    NoneFinal toUpperCase events :=
  fun event hmem => h event (List.mem_append_left more hmem)

theorem saysCompleted_append : SaysCompleted toUpperCase charge (events ++ [event]) ↔
    SaysCompleted toUpperCase charge events ∨ charge.status = .ACTIVE ∧ NoneFinal toUpperCase events ∧
      toChargeStatus toUpperCase event.status = some .COMPLETED := by
  rw [SaysCompleted, once_append, and_or_left, ← or_assoc]
  rfl

theorem StillOpen.not_saysCompleted (h : StillOpen toUpperCase charge events) :
    ¬ SaysCompleted toUpperCase charge events := by
  rintro (hcompleted | ⟨-, before, event, after, rfl, -, hevent⟩)
  · rw [h.1] at hcompleted
    exact PixChargeStatus.noConfusion hcompleted
  · rw [h.2 event (by simp)] at hevent
    exact PixChargeStatus.noConfusion (Option.some.inj hevent)

theorem Tracks.append (h : Tracks toUpperCase charge events) (hplain : Plain toUpperCase charge events event)
    (htime : ∀ last, charge.lastEventAt = some last → last ≤ event.instant) :
    Tracks toUpperCase charge (events ++ [event]) := by
  cases h with
  | still hopen hpaid =>
    obtain ⟨status, hstatus, hamount⟩ := hplain hopen
    by_cases hactive : status = .ACTIVE
    · refine .still (hopen.append (hactive ▸ hstatus)) ?_
      rw [lastPaid_append, hpaid]
      cases hevent : event.paidAmount with
      | none => rfl
      | some paid => exact hamount hactive paid hevent
    · have hstored : (applyAll toUpperCase charge (events ++ [event])).status = status := by
        have hsaid : (toChargeStatus toUpperCase event.status).getD .COMPLETED = status := by
          rw [hstatus]
          rfl
        rw [applyAll_append, applyAll_open hopen, storedAfter_active hopen.1 htime (hsaid ▸ hactive), hsaid]
      refine .final (fun _ hnone => hactive ?_) (by rwa [hstored]) ?_
      · exact hnone event (List.mem_append_right events (List.mem_singleton_self event)) status hstatus
      · rw [hstored, saysCompleted_append, hstatus, Option.some_inj]
        constructor
        · intro hcompleted
          exact .inr ⟨hopen.1, hopen.noneFinal, hcompleted⟩
        · rintro (hsaid | ⟨-, -, hcompleted⟩)
          · exact absurd hsaid hopen.not_saysCompleted
          · exact hcompleted
  | final hsaid hfinal hcompleted =>
    have hstored : applyAll toUpperCase charge (events ++ [event]) = applyAll toUpperCase charge events := by
      rw [applyAll_append, storedAfter_final hfinal]
    refine .final (fun hactive hnone => hsaid hactive hnone.left) (by rwa [hstored]) ?_
    rw [hstored, hcompleted, saysCompleted_append]
    exact ⟨.inl, fun h => h.elim id fun h => absurd h.2.1 (hsaid h.1)⟩

theorem tracks_of_plain (hafter : After charge events) (h : Always (Plain toUpperCase charge) events) :
    Tracks toUpperCase charge events := by
  induction events using List.reverseRecOn with
  | nil => exact tracks_nil
  | append_singleton events event ih =>
    obtain ⟨hevents, hevent⟩ := (always_append event).mp h
    refine (ih (fun event hmem => hafter event (List.mem_append_left _ hmem)) hevents).append hevent ?_
    exact hafter event (List.mem_append_right events (List.mem_singleton_self event))

theorem Follows.plain (h : Follows toUpperCase charge events) (hafter : After charge events) :
    Always (Plain toUpperCase charge) events := by
  rintro before event after rfl hopen
  have hstored := applyAll_open hopen
  have hsplit : before ++ event :: after = (before ++ [event]) ++ after := by simp
  cases hevent : toChargeStatus toUpperCase event.status with
  | none =>
    have hkept := h.unrecognised before event after rfl hevent
    have hnew : (toChargeStatus toUpperCase event.status).getD .COMPLETED ≠ .ACTIVE := by
      rw [hevent]
      exact PixChargeStatus.noConfusion
    rw [applyAll_append, hstored, storedAfter_active hopen.1 (hafter event (by simp)) hnew,
      hevent, hopen.1] at hkept
    exact PixChargeStatus.noConfusion hkept
  | some status =>
    refine ⟨status, rfl, fun hactive paid hpaid => ?_⟩
    subst hactive
    have hstored := applyAll_open (hopen.append hevent)
    have hlast := h.paid (before ++ [event]) after hsplit (by rw [hstored, hopen.1])
    rw [hstored, lastPaid_append, hpaid] at hlast
    exact hlast.symm

/-- The stored charge follows the provider exactly in the sequences that never
rely on the mapping of an unknown status or on an amount without a new status. -/
theorem follows_iff (hafter : After charge events) :
    Follows toUpperCase charge events ↔ Always (Plain toUpperCase charge) events := by
  refine ⟨fun h => h.plain hafter, fun h => ⟨?_, ?_, ?_⟩⟩
  · rintro before after rfl
    cases tracks_of_plain (fun event hmem => hafter event (List.mem_append_left _ hmem)) h.left with
    | still hopen _ =>
      rw [applyAll_open hopen, hopen.1]
      exact ⟨PixChargeStatus.noConfusion, fun hsaid => absurd hsaid hopen.not_saysCompleted⟩
    | final _ _ hcompleted => exact hcompleted
  · rintro before event after rfl hnone
    cases tracks_of_plain (fun event hmem => hafter event (List.mem_append_left _ hmem)) h.left with
    | still hopen _ =>
      obtain ⟨status, hstatus, -⟩ := h before event after rfl hopen
      exact absurd (hnone.symm.trans hstatus) (Option.some_ne_none status).symm
    | final _ hfinal _ => rw [applyAll_append, storedAfter_final hfinal]
  · rintro before after rfl hactive
    cases tracks_of_plain (fun event hmem => hafter event (List.mem_append_left _ hmem)) h.left with
    | still hopen hpaid => rw [applyAll_open hopen, hpaid]
    | final _ hfinal _ => exact absurd hactive hfinal

def fresh : PixChargeRecord := ⟨.ACTIVE, 1, 0, none, none⟩

theorem after_fresh : After fresh events :=
  fun _ _ last hlast => absurd hlast (Option.some_ne_none last).symm

/-- A charge event with a status that is not known, and nothing paid. -/
def unknown : ChargeEvent := ⟨some "AWAITING", none, some 10, 10⟩

def confirmed : List ChargeEvent :=
  [⟨some "ACTIVE", some 0, some 10, 10⟩, ⟨some "COMPLETED", some 500, some 20, 20⟩]

theorem follows_iff_paid : ∃ (charge : PixChargeRecord) (events : List ChargeEvent),
    (applyAll id charge events).status = .COMPLETED ∧ Follows id charge events := by
  refine ⟨fresh, confirmed, by decide, (follows_iff after_fresh).mpr ?_⟩
  have hfirst : Plain id fresh [] ⟨some "ACTIVE", some 0, some 10, 10⟩ :=
    fun _ => ⟨.ACTIVE, by decide, fun _ paid hpaid => (Option.some.inj hpaid).symm⟩
  have hsecond : Plain id fresh [⟨some "ACTIVE", some 0, some 10, 10⟩]
    ⟨some "COMPLETED", some 500, some 20, 20⟩ :=
    fun _ => ⟨.COMPLETED, by decide, fun h => PixChargeStatus.noConfusion h⟩
  have hboth : AlwaysFrom (Plain id fresh) [] confirmed := ⟨hfirst, hsecond, trivial⟩
  exact hboth.always always_nil

theorem charge_status_not_followed : ∃ (charge : PixChargeRecord) (event : ChargeEvent),
    After charge [event] ∧ toChargeStatus id event.status = none ∧
      (applyAll id charge [event]).status = .COMPLETED ∧ ¬ Follows id charge [event] := by
  refine ⟨fresh, unknown, after_fresh, by decide, by decide, fun h => ?_⟩
  exact absurd (h.unrecognised [] unknown [] rfl (by decide)) (by decide)

end BaasConnector.Webhooks.ChargeEvents
