import BaasConnector.Accounts.OnboardingCases
import BaasConnector.Connector.Records

namespace BaasConnector.Connector.Streams

open BaasConnector.Taxonomy.Status BaasConnector.Connector.Records

/-- What the guard reads and writes of a stored record. -/
structure StatusRow (S : Type) where
  status : S
  lastEventAt : Option Int
deriving DecidableEq, Repr

structure ProviderEvent (S : Type) where
  toStatus : S
  occurredAt : Int
deriving DecidableEq, Repr

section Apply

variable {S : Type} [DecidableEq S] (table : TransitionTable S) (ranks : RankTable S)

def applyStatusChange (row : StatusRow S) (event : ProviderEvent S) :
    StatusRow S × Option StatusChangeRejection :=
  match guardStatus table ranks row.status event.toStatus event.occurredAt row.lastEventAt with
  | some reason => (row, some reason)
  | none => (⟨event.toStatus, some event.occurredAt⟩, none)

def applyAll (row : StatusRow S) (events : List (ProviderEvent S)) : StatusRow S :=
  events.foldl (fun row event => (applyStatusChange table ranks row event).1) row

/-- Every event of the stream is applied when its turn comes, and is the stored
status from then on. -/
def AppliesEach (row : StatusRow S) (events : List (ProviderEvent S)) : Prop :=
  ∀ seen event rest, events = seen ++ event :: rest →
    (applyStatusChange table ranks (applyAll table ranks row seen) event).2 = none ∧
      (applyAll table ranks row (seen ++ [event])).status = event.toStatus

variable {table ranks} {row : StatusRow S} {event : ProviderEvent S}

/-- The guard takes an event that is not older than the last one, goes up in
rank and is a legal transition, and nothing else. -/
theorem applyStatusChange_cases (table : TransitionTable S) (ranks : RankTable S) (row : StatusRow S)
    (event : ProviderEvent S) :
    ((∀ t, row.lastEventAt = some t → t ≤ event.occurredAt) ∧ ranks row.status < ranks event.toStatus ∧
        event.toStatus ∈ table row.status ∧
        applyStatusChange table ranks row event = (⟨event.toStatus, some event.occurredAt⟩, none)) ∨
    (¬ ((∀ t, row.lastEventAt = some t → t ≤ event.occurredAt) ∧ ranks row.status < ranks event.toStatus ∧
        event.toStatus ∈ table row.status) ∧
      ∃ reason, applyStatusChange table ranks row event = (row, some reason)) := by
  have hnone : guardStatus table ranks row.status event.toStatus event.occurredAt row.lastEventAt = none ↔
      (∀ t, row.lastEventAt = some t → t ≤ event.occurredAt) ∧ ranks row.status < ranks event.toStatus ∧
        event.toStatus ∈ table row.status := guardStatus_none
  unfold applyStatusChange
  cases hg : guardStatus table ranks row.status event.toStatus event.occurredAt row.lastEventAt with
  | none =>
    obtain ⟨htime, hrank, hlegal⟩ := hnone.mp hg
    exact .inl ⟨htime, hrank, hlegal, rfl⟩
  | some reason =>
    refine .inr ⟨fun h => ?_, reason, rfl⟩
    rw [hnone.mpr h] at hg
    cases hg

theorem appliesEach_cons {events : List (ProviderEvent S)} :
    AppliesEach table ranks row (event :: events) ↔
      (applyStatusChange table ranks row event).2 = none ∧
        AppliesEach table ranks (applyStatusChange table ranks row event).1 events := by
  constructor
  · intro h
    have hfirst := (h [] event events rfl).1
    refine ⟨hfirst, fun seen e rest hsplit => ?_⟩
    exact h (event :: seen) e rest (by rw [hsplit, List.cons_append])
  · rintro ⟨hfirst, hrest⟩ seen e rest hsplit
    cases seen with
    | nil =>
      obtain ⟨rfl, rfl⟩ := List.cons.inj hsplit
      refine ⟨hfirst, ?_⟩
      obtain ⟨-, -, -, happly⟩ | ⟨-, reason, happly⟩ := applyStatusChange_cases table ranks row event
      · simp [applyAll, happly]
      · rw [happly] at hfirst
        cases hfirst
    | cons s seen =>
      obtain ⟨rfl, rfl⟩ := List.cons.inj hsplit
      exact hrest seen e rest rfl

/-- A legal stream in order of time is applied whole exactly when every one of
its transitions goes up in rank. -/
theorem appliesEach_iff (row : StatusRow S) {events : List (ProviderEvent S)}
    (hlegal : (row.status :: events.map fun e => e.toStatus).IsChain fun s t => t ∈ table s)
    (htimes : (events.map fun e => e.occurredAt).Pairwise (· < ·))
    (hstart : ∀ t, row.lastEventAt = some t → ∀ e ∈ events, t ≤ e.occurredAt) :
    AppliesEach table ranks row events ↔
      (row.status :: events.map fun e => e.toStatus).IsChain fun s t => ranks s < ranks t := by
  induction events generalizing row with
  | nil =>
    refine ⟨fun _ => List.IsChain.singleton _, fun _ seen e rest h => ?_⟩
    exact absurd h (by simp)
  | cons event events ih =>
    rw [List.map_cons, List.isChain_cons_cons] at hlegal
    rw [List.map_cons, List.pairwise_cons] at htimes
    rw [appliesEach_cons, List.map_cons, List.isChain_cons_cons]
    have htime : ∀ t, row.lastEventAt = some t → t ≤ event.occurredAt := fun t ht =>
      hstart t ht event (List.mem_cons_self)
    obtain ⟨-, hrank, -, happly⟩ | ⟨hrefused, reason, happly⟩ := applyStatusChange_cases table ranks row event
    · have hnext := ih ⟨event.toStatus, some event.occurredAt⟩ hlegal.2 htimes.2 (by
        rintro t ⟨⟩ e he
        exact Int.le_of_lt (htimes.1 _ (List.mem_map_of_mem he)))
      rw [happly, hnext]
      simp [hrank]
    · rw [happly]
      simp only [reduceCtorEq, false_and, false_iff]
      rintro ⟨hrank, -⟩
      exact hrefused ⟨htime, hrank, hlegal.1⟩

end Apply

section Records

open BaasConnector.Accounts

def transactionRow (r : TransactionRecord) : StatusRow TransactionStatus := ⟨r.status, r.lastEventAt⟩

def accountRow (r : AccountRecord) : StatusRow AccountStatus := ⟨r.status, r.lastEventAt⟩

/-- The stored transaction moves as its row does. -/
theorem transactionRow_change (r : TransactionRecord) (c : TransactionStatusChange) :
    applyStatusChange transactionTransitions transactionRanks (transactionRow r) ⟨c.toStatus, c.occurredAt⟩ =
      match r.guard c.toStatus c.occurredAt with
      | some reason => (transactionRow r, some reason)
      | none => (transactionRow (r.change c), none) := rfl

theorem accountRow_change (r : AccountRecord) (c : AccountStatusChange) :
    applyStatusChange accountTransitions accountRanks (accountRow r) ⟨c.toStatus, c.occurredAt⟩ =
      match r.guard c.toStatus c.occurredAt with
      | some reason => (accountRow r, some reason)
      | none => (accountRow (r.change c), none) := rfl

def onboardingRow (r : OnboardingCases.OnboardingCase) : StatusRow OnboardingStatus := ⟨r.status, r.lastEventAt⟩

theorem onboardingRow_written (r : OnboardingCases.OnboardingCase) (c : OnboardingCases.StatusChange) :
    applyStatusChange onboardingTransitions onboardingRanks (onboardingRow r) ⟨c.toStatus, c.occurredAt⟩ =
      match c.guarded r with
      | some reason => (onboardingRow r, some reason)
      | none => (onboardingRow (OnboardingCases.Prisma.written c r), none) := rfl

end Records

section Kinds

/-- The entities whose status follows the events of the provider. -/
inductive EntityKind
  | account | onboarding | transaction
deriving DecidableEq, Repr

abbrev EntityKind.Status : EntityKind → Type
  | .account => AccountStatus
  | .onboarding => OnboardingStatus
  | .transaction => TransactionStatus

instance (kind : EntityKind) : DecidableEq kind.Status :=
  match kind with
  | .account => inferInstanceAs (DecidableEq AccountStatus)
  | .onboarding => inferInstanceAs (DecidableEq OnboardingStatus)
  | .transaction => inferInstanceAs (DecidableEq TransactionStatus)

def EntityKind.transitions : (kind : EntityKind) → TransitionTable kind.Status
  | .account => accountTransitions
  | .onboarding => onboardingTransitions
  | .transaction => transactionTransitions

def EntityKind.ranks : (kind : EntityKind) → RankTable kind.Status
  | .account => accountRanks
  | .onboarding => onboardingRanks
  | .transaction => transactionRanks

/-- A legal stream of provider events in order of time is applied whole exactly
when no transition of it keeps or lowers the rank. -/
theorem in_order_stream_applied (kind : EntityKind) (row : StatusRow kind.Status)
    (events : List (ProviderEvent kind.Status))
    (hlegal : (row.status :: events.map fun e => e.toStatus).IsChain fun s t => t ∈ kind.transitions s)
    (htimes : (events.map fun e => e.occurredAt).Pairwise (· < ·))
    (hstart : ∀ t, row.lastEventAt = some t → ∀ e ∈ events, t ≤ e.occurredAt) :
    AppliesEach kind.transitions kind.ranks row events ↔
      (row.status :: events.map fun e => e.toStatus).IsChain fun s t => kind.ranks s < kind.ranks t :=
  appliesEach_iff row hlegal htimes hstart

theorem in_order_stream_applied_settlement :
    AppliesEach transactionTransitions transactionRanks ⟨.PENDING, none⟩ [⟨.PROCESSING, 1⟩, ⟨.SETTLED, 2⟩] :=
  (in_order_stream_applied .transaction ⟨.PENDING, none⟩ [⟨.PROCESSING, 1⟩, ⟨.SETTLED, 2⟩] (by decide)
    (by decide) (by decide)).mpr (by decide)

/-- An account that the provider blocks and unblocks stays blocked. -/
theorem unblocked_account_stays_blocked :
    ¬ ∀ (kind : EntityKind) (row : StatusRow kind.Status) (events : List (ProviderEvent kind.Status)),
      ((row.status :: events.map fun e => e.toStatus).IsChain fun s t => t ∈ kind.transitions s) →
      (events.map fun e => e.occurredAt).Pairwise (· < ·) →
      (∀ t, row.lastEventAt = some t → ∀ e ∈ events, t ≤ e.occurredAt) →
      AppliesEach kind.transitions kind.ranks row events := by
  intro h
  have happlied := h .account ⟨.ACTIVE, none⟩ [⟨.BLOCKED, 1⟩, ⟨.ACTIVE, 2⟩] (by decide)
    (by decide) (by decide)
  have hlast := (happlied [⟨.BLOCKED, 1⟩] ⟨.ACTIVE, 2⟩ [] rfl).1
  exact absurd hlast (by decide)

end Kinds

end BaasConnector.Connector.Streams
