import BaasConnector.Taxonomy.Errors
import Mathlib.Data.List.Basic

namespace BaasConnector.Balance.BypassRules

inductive Consistency
  | cached | strong
deriving DecidableEq, Repr

/-- What the rules look at. An instant is a number of milliseconds. -/
structure BypassInput where
  consistency : Consistency
  authorizationPath : Bool
  lastLocalMovementAt : Option Int
  hasInboundWebhooks : Bool
  hasHighSeverityBreak : Bool
  cachedAsOf : Option Int
  lastKnownMovementAt : Option Int
  now : Int
  postMutationWindowSeconds : Int
deriving DecidableEq, Repr

inductive BypassReason
  | consistencyStrong | authorizationPath | recentLocalMutation | noInboundWebhooks
  | openReconciliationBreak | cacheOlderThanMovement
deriving DecidableEq, Repr

structure Rule where
  reason : BypassReason
  applies : BypassInput → Bool

def rules : List Rule :=
  [⟨.consistencyStrong, fun input => input.consistency = .strong⟩,
    ⟨.authorizationPath, fun input => input.authorizationPath⟩,
    ⟨.recentLocalMutation, fun input => input.lastLocalMovementAt.any fun movedAt =>
      input.now - movedAt < input.postMutationWindowSeconds * 1000⟩,
    ⟨.noInboundWebhooks, fun input => !input.hasInboundWebhooks⟩,
    ⟨.openReconciliationBreak, fun input => input.hasHighSeverityBreak⟩,
    ⟨.cacheOlderThanMovement, fun input => input.cachedAsOf.any fun asOf =>
      input.lastKnownMovementAt.any fun movedAt => asOf < movedAt⟩]

def bypassReason (input : BypassInput) : Option BypassReason :=
  (rules.find? (·.applies input)).map (·.reason)

def allBypassReasons (input : BypassInput) : List BypassReason :=
  (rules.filter (·.applies input)).map (·.reason)

theorem bypassReason_eq_head (input : BypassInput) :
    bypassReason input = (allBypassReasons input).head? := by
  rw [bypassReason, allBypassReasons, List.head?_map, List.head?_filter]

/-- A read that the cache may serve. -/
structure Servable (input : BypassInput) : Prop where
  asked : input.consistency = .cached
  authorizes : input.authorizationPath = false
  settled : ∀ movedAt ∈ input.lastLocalMovementAt,
    input.postMutationWindowSeconds * 1000 ≤ input.now - movedAt
  notified : input.hasInboundWebhooks = true
  agreed : input.hasHighSeverityBreak = false
  current : ∀ asOf ∈ input.cachedAsOf, ∀ movedAt ∈ input.lastKnownMovementAt, movedAt ≤ asOf

theorem bypassReason_eq_none_iff {input : BypassInput} : bypassReason input = none ↔ Servable input := by
  have hcached : input.consistency ≠ .strong ↔ input.consistency = .cached := by
    cases input.consistency <;> simp
  constructor
  · intro h
    have hnone := List.find?_eq_none.mp (Option.map_eq_none_iff.mp h)
    simp only [rules, List.forall_mem_cons, Option.any_eq_true, decide_eq_true_eq, hcached] at hnone
    obtain ⟨hasked, hauthorizes, hsettled, hnotified, hagreed, hcurrent, -⟩ := hnone
    refine ⟨hasked, by simpa using hauthorizes, fun movedAt hm => ?_, by simpa using hnotified,
      by simpa using hagreed, fun asOf ha movedAt hm => ?_⟩
    · exact Int.not_lt.mp fun hlt => hsettled ⟨movedAt, hm, hlt⟩
    · exact Int.not_lt.mp fun hlt => hcurrent ⟨asOf, ha, movedAt, hm, hlt⟩
  · rintro ⟨hasked, hauthorizes, hsettled, hnotified, hagreed, hcurrent⟩
    refine Option.map_eq_none_iff.mpr (List.find?_eq_none.mpr ?_)
    simp only [rules, List.forall_mem_cons, Option.any_eq_true, decide_eq_true_eq, hcached]
    refine ⟨hasked, by simp [hauthorizes], ?_, by simp [hnotified], by simp [hagreed], ?_, by simp⟩
    · rintro ⟨movedAt, hm, hlt⟩
      exact absurd hlt (Int.not_lt.mpr (hsettled movedAt hm))
    · rintro ⟨asOf, ha, movedAt, hm, hlt⟩
      exact absurd hlt (Int.not_lt.mpr (hcurrent asOf ha movedAt hm))

inductive Source
  | cache | provider | ledger | cacheStale
deriving DecidableEq, Repr

structure Freshness where
  source : Source
  asOf : Int
  ageMs : Int
  staleAfter : Int
  degraded : Bool
deriving DecidableEq, Repr

def freshnessOf (source : Source) (asOf now ttlSeconds : Int) (degraded : Bool) : Freshness :=
  { source, asOf, ageMs := max 0 (now - asOf), staleAfter := asOf + ttlSeconds * 1000, degraded }

end BaasConnector.Balance.BypassRules

namespace BaasConnector.Balance.Service

open BaasConnector.Balance.BypassRules BaasConnector.Taxonomy.Errors

inductive OnProviderError
  | fail | serveStale
deriving DecidableEq, Repr

/-- A balance query whose source is the provider. -/
structure BalanceQuery where
  consistency : Consistency
  onProviderError : OnProviderError
deriving DecidableEq, Repr

/-- The balance as the cache keeps it, in cents. -/
structure ProviderBalanceSnapshot where
  available : Int
  blocked : Option Int
  pending : Option Int
  asOf : Option Int
deriving DecidableEq, Repr

structure CacheEntry (T : Type) where
  value : T
  asOf : Int
deriving DecidableEq, Repr

structure BalanceDto where
  accountId : String
  available : Int
  blocked : Int
  pending : Int
  total : Int
  scheduledOutflow : Option Int
deriving DecidableEq, Repr

structure BalanceResult where
  dto : BalanceDto
  freshness : Freshness
  bypass : Option BypassReason
deriving DecidableEq, Repr

inductive CacheStore
  | redis | memory
deriving DecidableEq, Repr

/-- The account that is read, what its connection supports, and the settings of
the API. -/
structure Config where
  store : CacheStore
  accountId : String
  hasInboundWebhooks : Bool
  balanceCacheTtlSeconds : Int
  postMutationBypassSeconds : Int

structure BalanceSignals where
  hasHighSeverityBreak : Bool
  lastKnownMovementAt : Option Int

/-- The signals out of the count of open breaks of high severity and of the
account's last event. -/
def defaultBalanceSignals (openHighSeverity : Nat) (lastEventAt : Option Int) : BalanceSignals :=
  { hasHighSeverityBreak := decide (0 < openHighSeverity), lastKnownMovementAt := lastEventAt }

variable (config : Config) (now : Int)

def toDto (snapshot : ProviderBalanceSnapshot) : BalanceDto :=
  let blocked := snapshot.blocked.getD 0
  let pending := snapshot.pending.getD 0
  { accountId := config.accountId, available := snapshot.available, blocked, pending,
    total := snapshot.available + blocked + pending, scheduledOutflow := none }

def bypassInput (query : BalanceQuery) (authorizationPath : Bool) (lastEventAt : Option Int)
    (cached : Option (CacheEntry ProviderBalanceSnapshot)) (signals : BalanceSignals) : BypassInput :=
  { consistency := query.consistency, authorizationPath, lastLocalMovementAt := lastEventAt,
    hasInboundWebhooks := config.hasInboundWebhooks, hasHighSeverityBreak := signals.hasHighSeverityBreak,
    cachedAsOf := cached.map (·.asOf), lastKnownMovementAt := signals.lastKnownMovementAt, now,
    postMutationWindowSeconds := config.postMutationBypassSeconds }

/-- The reply out of the cache, when no rule asks to bypass it. -/
def fromCache (cached : CacheEntry ProviderBalanceSnapshot) : BalanceResult :=
  { dto := toDto config cached.value,
    freshness := freshnessOf .cache cached.asOf now config.balanceCacheTtlSeconds false,
    bypass := none }

/-- The reply after the single flight. -/
def fromFlight (fresh : ProviderBalanceSnapshot) (asOf : Int) (bypass : Option BypassReason) :
    BalanceResult :=
  { dto := toDto config fresh,
    freshness := freshnessOf .provider asOf now config.balanceCacheTtlSeconds false,
    bypass }

def providerUnavailable : BaasError :=
  ⟨.PROVIDER_UNAVAILABLE, "Nao foi possivel consultar o saldo no provedor.", []⟩

def onProviderFailure (query : BalanceQuery) (cached : Option (CacheEntry ProviderBalanceSnapshot))
    (error : Thrown) : Except Thrown BalanceResult :=
  match query.onProviderError, cached with
  | .serveStale, some entry =>
    .ok { dto := toDto config entry.value,
          freshness := freshnessOf .cacheStale entry.asOf now config.balanceCacheTtlSeconds true,
          bypass := none }
  | _, _ =>
    match error with
    | .failure _ => .error (.baas providerUnavailable)
    | error => .error error

theorem onProviderFailure_bypass {query : BalanceQuery}
    {cached : Option (CacheEntry ProviderBalanceSnapshot)} {error : Thrown} {result : BalanceResult}
    (h : onProviderFailure config now query cached error = .ok result) :
    result.bypass = none ∧ result.freshness.degraded = true ∧ query.onProviderError = .serveStale := by
  unfold onProviderFailure at h
  split at h
  · next hquery =>
    cases h
    exact ⟨rfl, rfl, hquery⟩
  · split at h <;> cases h

end BaasConnector.Balance.Service
