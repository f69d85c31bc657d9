import Mathlib.Data.List.Basic

namespace BaasConnector.Taxonomy.Status

inductive Environment
  | HOMOLOGACAO | PRODUCAO
deriving DecidableEq, Repr

def Environment.text : Environment → String
  | .HOMOLOGACAO => "HOMOLOGACAO"
  | .PRODUCAO => "PRODUCAO"

inductive TransactionStatus
  | CREATED | PENDING | PROCESSING | SETTLED | FAILED | CANCELLED | REVERSED | PARTIALLY_REVERSED
  | UNKNOWN
deriving DecidableEq, Repr

inductive AccountStatus
  | DRAFT | PENDING_ONBOARDING | PENDING_DOCUMENTS | UNDER_REVIEW | ACTIVE | BLOCKED | SUSPENDED
  | REJECTED | CLOSING | CLOSED
deriving DecidableEq, Repr

inductive OnboardingStatus
  | DRAFT | SUBMITTED | PENDING_REQUIREMENTS | IN_ANALYSIS | MANUAL_REVIEW | APPROVED | REJECTED
  | EXPIRED | CANCELLED
deriving DecidableEq, Repr

inductive DeliveryStatus
  | PENDING | SUCCEEDED | FAILED | EXHAUSTED
deriving DecidableEq, Repr

abbrev TransitionTable (S : Type) := S → List S

abbrev RankTable (S : Type) := S → Nat

def transactionTransitions : TransitionTable TransactionStatus
  | .CREATED => [.PENDING, .PROCESSING, .FAILED, .CANCELLED, .UNKNOWN]
  | .PENDING => [.PROCESSING, .SETTLED, .FAILED, .CANCELLED, .UNKNOWN]
  | .PROCESSING => [.SETTLED, .FAILED, .UNKNOWN]
  | .SETTLED => [.REVERSED, .PARTIALLY_REVERSED]
  | .PARTIALLY_REVERSED => [.REVERSED, .PARTIALLY_REVERSED]
  | .FAILED => []
  | .CANCELLED => []
  | .REVERSED => []
  | .UNKNOWN => [.PENDING, .PROCESSING, .SETTLED, .FAILED, .CANCELLED]

def accountTransitions : TransitionTable AccountStatus
  | .DRAFT => [.PENDING_ONBOARDING, .REJECTED]
  | .PENDING_ONBOARDING => [.PENDING_DOCUMENTS, .UNDER_REVIEW, .ACTIVE, .REJECTED]
  | .PENDING_DOCUMENTS => [.UNDER_REVIEW, .PENDING_ONBOARDING, .ACTIVE, .REJECTED]
  | .UNDER_REVIEW => [.ACTIVE, .PENDING_DOCUMENTS, .REJECTED]
  | .ACTIVE => [.BLOCKED, .SUSPENDED, .CLOSING]
  | .BLOCKED => [.ACTIVE, .CLOSING, .CLOSED]
  | .SUSPENDED => [.ACTIVE, .CLOSING]
  | .REJECTED => []
  | .CLOSING => [.CLOSED, .ACTIVE]
  | .CLOSED => []

def onboardingTransitions : TransitionTable OnboardingStatus
  | .DRAFT => [.SUBMITTED, .CANCELLED]
  | .SUBMITTED => [.IN_ANALYSIS, .PENDING_REQUIREMENTS, .MANUAL_REVIEW, .APPROVED, .REJECTED, .EXPIRED]
  | .PENDING_REQUIREMENTS =>
    [.IN_ANALYSIS, .SUBMITTED, .MANUAL_REVIEW, .APPROVED, .REJECTED, .EXPIRED, .CANCELLED]
  | .IN_ANALYSIS => [.PENDING_REQUIREMENTS, .MANUAL_REVIEW, .APPROVED, .REJECTED, .EXPIRED]
  | .MANUAL_REVIEW => [.APPROVED, .REJECTED, .PENDING_REQUIREMENTS, .EXPIRED]
  | .APPROVED => []
  | .REJECTED => []
  | .EXPIRED => []
  | .CANCELLED => []

def transactionRanks : RankTable TransactionStatus
  | .UNKNOWN => 0
  | .CREATED => 1
  | .PENDING => 2
  | .PROCESSING => 3
  | .SETTLED => 4
  | .FAILED => 4
  | .CANCELLED => 4
  | .PARTIALLY_REVERSED => 5
  | .REVERSED => 6

def accountRanks : RankTable AccountStatus
  | .DRAFT => 0
  | .PENDING_ONBOARDING => 1
  | .PENDING_DOCUMENTS => 2
  | .UNDER_REVIEW => 3
  | .ACTIVE => 4
  | .REJECTED => 4
  | .SUSPENDED => 5
  | .BLOCKED => 5
  | .CLOSING => 6
  | .CLOSED => 7

def onboardingRanks : RankTable OnboardingStatus
  | .DRAFT => 0
  | .SUBMITTED => 1
  | .PENDING_REQUIREMENTS => 2
  | .IN_ANALYSIS => 2
  | .MANUAL_REVIEW => 3
  | .APPROVED => 4
  | .REJECTED => 4
  | .EXPIRED => 4
  | .CANCELLED => 4

section Guard

variable {S : Type} [DecidableEq S]

structure TransitionCheck where
  allowed : Bool
  noop : Bool
deriving DecidableEq

def checkTransition (table : TransitionTable S) (origin target : S) : TransitionCheck :=
  if origin = target then ⟨true, true⟩ else ⟨decide (target ∈ table origin), false⟩

inductive Staleness
  | stale_timestamp | same_state | stale_rank
deriving DecidableEq, Repr

/-- Whether a provider event is applied. Instants are milliseconds since the
epoch; `none` means apply, a reason means discard. -/
def decideMonotonic (ranks : RankTable S) (current incoming : S) (occurredAt : Int)
    (lastEventAt : Option Int) : Option Staleness :=
  if lastEventAt.any (occurredAt < ·) then some .stale_timestamp
  else if current = incoming then some .same_state
  else if ranks incoming ≤ ranks current then some .stale_rank
  else none

theorem decideMonotonic_none {ranks : RankTable S} {current incoming : S} {occurredAt : Int}
    {lastEventAt : Option Int} :
    decideMonotonic ranks current incoming occurredAt lastEventAt = none ↔
      (∀ t, lastEventAt = some t → t ≤ occurredAt) ∧ ranks current < ranks incoming := by
  unfold decideMonotonic
  cases lastEventAt with
  | none =>
    by_cases he : current = incoming
    · simp [he]
    · simp [he]
  | some t =>
    by_cases ht : occurredAt < t
    · have hn : ¬ t ≤ occurredAt := by omega
      simp [ht, hn]
    · by_cases he : current = incoming
      · simp [ht, he]
      · simp [ht, he]
        omega

theorem decideMonotonic_stale_timestamp {ranks : RankTable S} {current incoming : S}
    {occurredAt : Int} {lastEventAt : Option Int} :
    decideMonotonic ranks current incoming occurredAt lastEventAt = some .stale_timestamp ↔
      ∃ t, lastEventAt = some t ∧ occurredAt < t := by
  unfold decideMonotonic
  cases lastEventAt with
  | none => by_cases he : current = incoming <;> simp [he]
  | some t =>
    by_cases ht : occurredAt < t
    · simp [ht]
    · by_cases he : current = incoming <;> simp [ht, he]

theorem checkTransition_illegal {table : TransitionTable S} {origin target : S} :
    (checkTransition table origin target).allowed = false ↔
      origin ≠ target ∧ target ∉ table origin := by
  unfold checkTransition
  by_cases he : origin = target <;> simp [he]

end Guard

/-- Every transition of the transaction table goes up in rank, but for those
into UNKNOWN and those out of PARTIALLY_REVERSED. -/
theorem transactionTransitions_rank {s t : TransactionStatus} (h : t ∈ transactionTransitions s)
    (ht : t ≠ .UNKNOWN) (hp : s ≠ .PARTIALLY_REVERSED) :
    transactionRanks s < transactionRanks t := by
  cases s <;> cases t <;> simp_all [transactionTransitions, transactionRanks]

end BaasConnector.Taxonomy.Status
