import BaasConnector.Connector.Streams
import Mathlib.Data.Fintype.OfMap

namespace BaasConnector.Connector.Reordering

open BaasConnector.Taxonomy.Status BaasConnector.Connector.Records BaasConnector.Connector.Streams

instance : Fintype TransactionStatus :=
  Fintype.ofList [.CREATED, .PENDING, .PROCESSING, .SETTLED, .FAILED, .CANCELLED, .REVERSED,
    .PARTIALLY_REVERSED, .UNKNOWN] (by intro s; cases s <;> decide)

abbrev TransactionEvent := ProviderEvent TransactionStatus

/-- The guard takes the second status over the first one, at the right time. -/
def Jumps (s t : TransactionStatus) : Prop :=
  transactionRanks s < transactionRanks t ∧ t ∈ transactionTransitions s

instance (s t : TransactionStatus) : Decidable (Jumps s t) := inferInstanceAs (Decidable (_ ∧ _))

def Advances (s t : TransactionStatus) : Prop := s = t ∨ Jumps s t

instance (s t : TransactionStatus) : Decidable (Advances s t) := inferInstanceAs (Decidable (_ ∨ _))

/-- The events of one transaction along a path of its state machine. -/
structure LegalPath (path : List TransactionEvent) (first last : TransactionEvent) : Prop where
  head : path.head? = some first
  getLast : path.getLast? = some last
  legal : (path.map fun e => e.toStatus).IsChain fun s t => t ∈ transactionTransitions s
  times : (path.map fun e => e.occurredAt).Pairwise (· < ·)

abbrev deliver (row : StatusRow TransactionStatus) (events : List TransactionEvent) :
    StatusRow TransactionStatus :=
  applyAll transactionTransitions transactionRanks row events

/-- However the events arrive, each at least once, the last one wins. -/
def Converges (row : StatusRow TransactionStatus) (path : List TransactionEvent)
    (last : TransactionEvent) : Prop :=
  ∀ delivered : List TransactionEvent, (∀ e, e ∈ delivered ↔ e ∈ path) →
    (deliver row delivered).status = last.toStatus

/-- The last status is the first one or can be taken over it, and so it is with
every status of the path that can be taken over the first one. -/
def Direct (path : List TransactionEvent) (first last : TransactionEvent) : Prop :=
  Advances first.toStatus last.toStatus ∧
    ∀ e ∈ path, Jumps first.toStatus e.toStatus → Advances e.toStatus last.toStatus

section Statuses

def settledOnward : TransactionStatus → Bool
  | .SETTLED | .PARTIALLY_REVERSED | .REVERSED => true
  | _ => false

def reversedOnward : TransactionStatus → Bool
  | .PARTIALLY_REVERSED | .REVERSED => true
  | _ => false

theorem jumps_rank {s t : TransactionStatus} (h : Jumps s t) : transactionRanks s < transactionRanks t := h.1

theorem not_jumps_of_advances {s t : TransactionStatus} (h : Advances s t) : ¬ Jumps t s := by
  intro hback
  have hrank := jumps_rank hback
  obtain rfl | hjump := h
  · omega
  · have := jumps_rank hjump
    omega

theorem closed_path {P : TransactionStatus → Bool}
    (hclosed : ∀ s t, t ∈ transactionTransitions s → P s = true → P t = true)
    {path : List TransactionEvent}
    (hlegal : (path.map fun e => e.toStatus).IsChain fun s t => t ∈ transactionTransitions s)
    {e last : TransactionEvent} (he : e ∈ path) (hlast : path.getLast? = some last)
      (hP : P e.toStatus = true) :
    P last.toStatus = true := by
  induction path generalizing e with
  | nil => cases he
  | cons a path ih =>
    cases path with
    | nil =>
      rw [List.mem_singleton] at he
      rw [List.getLast?_singleton, Option.some.injEq] at hlast
      rwa [← hlast, ← he]
    | cons b path =>
      rw [List.getLast?_cons_cons] at hlast
      rw [List.map_cons, List.map_cons, List.isChain_cons_cons] at hlegal
      obtain rfl | he := List.mem_cons.mp he
      · have hb := hclosed _ _ hlegal.1 hP
        exact ih hlegal.2 List.mem_cons_self hlast hb
      · exact ih hlegal.2 he hlast hP

theorem settledOnward_closed :
    ∀ s t, t ∈ transactionTransitions s → settledOnward s = true → settledOnward t = true := by
  decide

theorem reversedOnward_closed :
    ∀ s t, t ∈ transactionTransitions s → reversedOnward s = true → reversedOnward t = true := by
  decide

/-- Two steps up are one, except into statuses that the first one leaves behind
whatever it takes next. -/
theorem jumps_trans_or : ∀ f c s, Jumps f c → Jumps c s → Jumps f s ∨
    (settledOnward s = true ∧ ∀ l, Advances f l → settledOnward l = false) ∨
    (reversedOnward s = true ∧ ∀ l, Advances f l → reversedOnward l = false) := by
  decide

theorem LegalPath.jumps_trans {path : List TransactionEvent} {first last e : TransactionEvent}
    {c : TransactionStatus} (hpath : LegalPath path first last) (he : e ∈ path)
    (hadvances : Advances first.toStatus last.toStatus) (hc : Jumps first.toStatus c)
    (hs : Jumps c e.toStatus) :
    Jumps first.toStatus e.toStatus := by
  obtain hjump | ⟨hsettled, hnone⟩ | ⟨hreversed, hnone⟩ := jumps_trans_or _ _ _ hc hs
  · exact hjump
  · have hlast := closed_path settledOnward_closed hpath.legal he hpath.getLast hsettled
    rw [hnone _ hadvances] at hlast
    cases hlast
  · have hlast := closed_path reversedOnward_closed hpath.legal he hpath.getLast hreversed
    rw [hnone _ hadvances] at hlast
    cases hlast

end Statuses

section Converging

variable {path : List TransactionEvent} {first last : TransactionEvent} {row : StatusRow TransactionStatus}

/-- What the row knows of the path after some of its events: its status is the
first one or one taken over it, and the last status once the last event has come. -/
structure Follows (path : List TransactionEvent) (first last : TransactionEvent)
    (row : StatusRow TransactionStatus) (seen : List TransactionEvent) : Prop where
  status : row.status = first.toStatus ∨
    ∃ e ∈ path, e.toStatus = row.status ∧ Jumps first.toStatus row.status
  time : ∀ t, row.lastEventAt = some t → t ≤ last.occurredAt
  arrived : last ∈ seen → row.status = last.toStatus

theorem LegalPath.time_le (hpath : LegalPath path first last) {e : TransactionEvent} (he : e ∈ path) :
    first.occurredAt ≤ e.occurredAt ∧ e.occurredAt ≤ last.occurredAt := by
  obtain ⟨hhead, hlast, -, htimes⟩ := hpath
  rw [List.pairwise_map] at htimes
  constructor
  · cases path with
    | nil => cases he
    | cons a path =>
      rw [List.head?_cons, Option.some.injEq] at hhead
      obtain rfl | he := List.mem_cons.mp he
      · rw [hhead]
      · have hlt := (List.pairwise_cons.mp htimes).1 e he
        rw [hhead] at hlt
        omega
  · obtain ⟨front, rfl⟩ := List.getLast?_eq_some_iff.mp hlast
    obtain he | he := List.mem_append.mp he
    · have hlt := (List.pairwise_append.mp htimes).2.2 e he last (List.mem_singleton_self last)
      omega
    · rw [List.mem_singleton.mp he]

theorem LegalPath.last_mem (hpath : LegalPath path first last) : last ∈ path :=
  List.mem_of_getLast? hpath.getLast

theorem Follows.advances (hdirect : Direct path first last) {seen : List TransactionEvent}
    (h : Follows path first last row seen) : Advances row.status last.toStatus := by
  obtain hfirst | ⟨e, he, hstatus, hjump⟩ := h.status
  · rw [hfirst]
    exact hdirect.1
  · rw [← hstatus] at hjump ⊢
    exact hdirect.2 e he hjump

theorem Follows.next (hpath : LegalPath path first last) (hdirect : Direct path first last)
    {seen : List TransactionEvent} {e : TransactionEvent} (he : e ∈ path)
    (h : Follows path first last row seen) :
    Follows path first last (applyStatusChange transactionTransitions transactionRanks row e).1
      (seen ++ [e]) := by
  obtain ⟨htime, hrank, hlegal, happly⟩ | ⟨hrefused, reason, happly⟩ :=
    applyStatusChange_cases transactionTransitions transactionRanks row e
  · rw [happly]
    have hjump : Jumps row.status e.toStatus := ⟨hrank, hlegal⟩
    have hfirst : Jumps first.toStatus e.toStatus := by
      obtain hstatus | ⟨d, -, -, hd⟩ := h.status
      · rwa [← hstatus]
      · exact hpath.jumps_trans he hdirect.1 hd hjump
    refine ⟨.inr ⟨e, he, rfl, hfirst⟩, ?_, fun harrived => ?_⟩
    · rintro t ⟨⟩
      exact (hpath.time_le he).2
    · obtain hseen | hlast := List.mem_append.mp harrived
      · rw [h.arrived hseen] at hjump
        exact absurd hjump (not_jumps_of_advances (hdirect.2 e he hfirst))
      · rw [List.mem_singleton.mp hlast]
  · rw [happly]
    refine ⟨h.status, h.time, fun harrived => ?_⟩
    obtain hseen | hlast := List.mem_append.mp harrived
    · exact h.arrived hseen
    · obtain rfl := List.mem_singleton.mp hlast
      obtain heq | hjump := h.advances hdirect
      · exact heq
      · exact absurd ⟨h.time, hjump⟩ hrefused

theorem Follows.deliver (hpath : LegalPath path first last) (hdirect : Direct path first last)
    {seen delivered : List TransactionEvent} (hdelivered : ∀ e ∈ delivered, e ∈ path)
    (h : Follows path first last row seen) :
    Follows path first last (deliver row delivered) (seen ++ delivered) := by
  induction delivered generalizing row seen with
  | nil => simpa [deliver, applyAll] using h
  | cons e delivered ih =>
    have hnext := h.next hpath hdirect (hdelivered e List.mem_cons_self)
    have hrest := ih (fun d hd => hdelivered d (List.mem_cons_of_mem e hd)) hnext
    rwa [List.append_assoc] at hrest

end Converging

section Diverging

variable {path : List TransactionEvent} {first last : TransactionEvent} {row : StatusRow TransactionStatus}

/-- The events of the path with those of the last status first. -/
def lastFirst (path : List TransactionEvent) (status : TransactionStatus) : List TransactionEvent :=
  path.filter (fun e => decide (e.toStatus = status)) ++ path.filter fun e => decide (e.toStatus ≠ status)

theorem mem_lastFirst {status : TransactionStatus} {e : TransactionEvent} :
    e ∈ lastFirst path status ↔ e ∈ path := by
  by_cases h : e.toStatus = status <;> simp [lastFirst, h]

theorem applyStatusChange_status (row : StatusRow TransactionStatus) (e : TransactionEvent) :
    (applyStatusChange transactionTransitions transactionRanks row e).1 = row ∨
      Jumps row.status e.toStatus ∧
        (applyStatusChange transactionTransitions transactionRanks row e).1.status = e.toStatus := by
  obtain ⟨-, hrank, hlegal, happly⟩ | ⟨-, reason, happly⟩ :=
    applyStatusChange_cases transactionTransitions transactionRanks row e
  · exact .inr ⟨⟨hrank, hlegal⟩, by rw [happly]⟩
  · exact .inl (by rw [happly])

theorem deliver_refused {status : TransactionStatus} {events : List TransactionEvent}
    (hrow : ¬ Jumps row.status status) (hevents : ∀ e ∈ events, e.toStatus = status) :
    deliver row events = row := by
  induction events with
  | nil => rfl
  | cons e events ih =>
    obtain hsame | ⟨hjump, -⟩ := applyStatusChange_status row e
    · rw [deliver, applyAll, List.foldl_cons, hsame]
      exact ih fun d hd => hevents d (List.mem_cons_of_mem e hd)
    · rw [hevents e List.mem_cons_self] at hjump
      exact absurd hjump hrow

theorem deliver_avoids {status : TransactionStatus} {events : List TransactionEvent}
    (hrow : row.status ≠ status) (hevents : ∀ e ∈ events, e.toStatus ≠ status) :
    (deliver row events).status ≠ status := by
  induction events generalizing row with
  | nil => exact hrow
  | cons e events ih =>
    have hnext : (applyStatusChange transactionTransitions transactionRanks row e).1.status ≠ status := by
      obtain hsame | ⟨-, hstatus⟩ := applyStatusChange_status row e
      · rwa [hsame]
      · rw [hstatus]
        exact hevents e List.mem_cons_self
    exact ih hnext fun d hd => hevents d (List.mem_cons_of_mem e hd)

theorem deliver_lastFirst {status : TransactionStatus} (hadvances : ¬ Advances row.status status) :
    (deliver row (lastFirst path status)).status ≠ status := by
  have hrefused : deliver row (path.filter fun e => decide (e.toStatus = status)) = row :=
    deliver_refused (fun h => hadvances (.inr h)) (by simp)
  rw [deliver, applyAll, lastFirst, List.foldl_append]
  change (deliver (deliver row _) _).status ≠ status
  rw [hrefused]
  exact deliver_avoids (fun h => hadvances (.inl h)) (by simp)

end Diverging

/-- However the events of a path arrive, the last one wins: so it is exactly for
the paths whose last status can be taken straight over the first one, and over
every status of the path that can. -/
theorem reordered_events_converge {path : List TransactionEvent} {first last : TransactionEvent}
    {row : StatusRow TransactionStatus} (hpath : LegalPath path first last)
    (hrow : row.status = first.toStatus)
    (hstart : ∀ t, row.lastEventAt = some t → t ≤ first.occurredAt) :
    Converges row path last ↔ Direct path first last := by
  constructor
  · intro h
    refine ⟨?_, fun e he hjump => ?_⟩
    · by_contra hadvances
      rw [← hrow] at hadvances
      exact deliver_lastFirst hadvances (h _ fun e => mem_lastFirst)
    · by_contra hadvances
      have hfinal := h (e :: lastFirst path last.toStatus) fun d => by
        rw [List.mem_cons, mem_lastFirst]
        exact ⟨fun hd => hd.elim (fun heq => heq ▸ he) id, .inr⟩
      rw [← hrow] at hjump
      have happlied : (applyStatusChange transactionTransitions transactionRanks row e).1.status =
        e.toStatus := by
        obtain ⟨-, -, -, happly⟩ | ⟨hrefused, -⟩ :=
          applyStatusChange_cases transactionTransitions transactionRanks row e
        · rw [happly]
        · have htime := (hpath.time_le he).1
          exact absurd ⟨fun t ht => (hstart t ht).trans htime, hjump⟩ hrefused
      rw [← happlied] at hadvances
      exact deliver_lastFirst hadvances hfinal
  · intro hdirect delivered hdelivered
    have hinitial : Follows path first last row [] :=
      ⟨.inl hrow, fun t ht => (hstart t ht).trans (hpath.time_le hpath.last_mem).1, by simp⟩
    have hfinal := hinitial.deliver hpath hdirect fun e he => (hdelivered e).mp he
    exact hfinal.arrived (List.mem_append_right [] ((hdelivered last).mpr hpath.last_mem))

section Sample

def samplePath : List TransactionEvent := [⟨.PENDING, 1⟩, ⟨.PROCESSING, 2⟩, ⟨.SETTLED, 3⟩]

theorem samplePath_legal : LegalPath samplePath ⟨.PENDING, 1⟩ ⟨.SETTLED, 3⟩ :=
  ⟨rfl, rfl, by decide, by decide⟩

theorem reordered_events_converge_settlement : Converges ⟨.PENDING, none⟩ samplePath ⟨.SETTLED, 3⟩ :=
  (reordered_events_converge samplePath_legal rfl (by simp)).mpr (by unfold Direct; decide)

/-- A settlement that overtakes the processing of a new payment is refused, and
does not come again. -/
theorem overtaking_settlement_lost :
    ¬ ∀ (path : List TransactionEvent) (first last : TransactionEvent) (row : StatusRow TransactionStatus),
      LegalPath path first last → row.status = first.toStatus →
      (∀ t, row.lastEventAt = some t → t ≤ first.occurredAt) → Converges row path last := by
  intro h
  have hconverges := h [⟨.CREATED, 1⟩, ⟨.PROCESSING, 2⟩, ⟨.SETTLED, 3⟩] ⟨.CREATED, 1⟩ ⟨.SETTLED, 3⟩
    ⟨.CREATED, none⟩ ⟨rfl, rfl, by decide, by decide⟩ rfl (by simp)
  have hfinal := hconverges [⟨.SETTLED, 3⟩, ⟨.PROCESSING, 2⟩, ⟨.CREATED, 1⟩] (by simp; tauto)
  exact absurd hfinal (by decide)

end Sample

end BaasConnector.Connector.Reordering
