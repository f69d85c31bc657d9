import BaasConnector.Connector.Records
import BaasConnector.Lib.Keyed

namespace BaasConnector.Reconciliation.Items

open BaasConnector.Lib.Keyed BaasConnector.Taxonomy.Status BaasConnector.Connector.Records

inductive ReconciliationSide
  | PROVIDER | LOCAL | LEDGER
deriving DecidableEq, Repr

inductive MatchConfidence
  | EXACT | HIGH | LOW
deriving DecidableEq, Repr

/-- An item of one of the three sides. The amount is gross, its sign lives in
the direction. -/
structure NormalizedItem where
  id : String
  side : ReconciliationSide
  accountId : String
  externalId : Option String
  endToEndId : Option String
  postedAt : Int
  effectiveDate : String
  direction : TransactionDirection
  amountCents : Int
  type : String
  status : Option TransactionStatus
  counterpartyTaxIdIndex : Option String
  providerTransactionId : Option String
  ledgerTransactionId : Option String
  matchKeyStrong : Option String
  matchKeyFuzzy : String
deriving DecidableEq, Repr

structure ReconciliationPolicy where
  settlementGraceMinutes : Int
  amountToleranceCents : Int
  amountToleranceBasisPoints : Int
  dateToleranceBusinessDays : Int
  autoResolveDateWithinBusinessDays : Int
  criticalAmountDeltaCents : Int
  maxGreedyPairs : Nat
  businessDaysBetween : String → String → Int

structure Balances where
  providerOpeningCents : Option Int
  providerClosingCents : Option Int
  ledgerClosingCents : Option Int
deriving DecidableEq, Repr

structure ReconciliationInput where
  accountId : String
  windowEnd : Int
  now : Int
  provider : List NormalizedItem
  localItems : List NormalizedItem
  ledger : List NormalizedItem
  balances : Balances
  policy : ReconciliationPolicy

structure MatchLink where
  providerItemId : Option String
  localItemId : Option String
  ledgerItemId : Option String
  confidence : MatchConfidence
  pass : Nat
  needsReview : Bool
deriving DecidableEq, Repr

inductive AutoResolutionIntent
  | importFromProvider (providerItemId : String)
  | markProviderAuthoritative (localItemId : String) (fromStatus toStatus : TransactionStatus)
  | ignoreTimingDifference (localItemId providerItemId : String) (driftBusinessDays : Int)
deriving DecidableEq, Repr

/-- What a break says of the records behind it, in the fields of its evidence. -/
inductive BreakEvidence
  | mesmaChave (chave duplicadoDe : String) (lado : ReconciliationSide)
  | excedente (duplicadoDe : String) (lado : ReconciliationSide)
  | valor (provedorCents localCents deltaCents : Int)
  | situacao (provedor localStatus : TransactionStatus)
  | data (provedor localDate : String) (diasUteis : Int)
  | movimento (tipoMovimento : String) (sentido : TransactionDirection) (ambiguo : Bool) (valorCents : Int)
  | registro (tipoMovimento : String) (sentido : TransactionDirection) (situacao : Option TransactionStatus)
      (idadeMinutos : Int)
  | lancamento (ledgerTransactionId : Option String) (sentido : TransactionDirection) (valorCents : Int)
  | valorDoRazao (razaoCents localCents deltaCents : Int)
  | dataDoRazao (razao localDate : String) (diasUteis : Int)
  | saldo (aberturaCents movimentoCasadoCents fechamentoEsperadoCents fechamentoProvedorCents : Int)
      (fechamentoRazaoCents : Option Int) (residuoCents : Int)
deriving DecidableEq, Repr

structure BreakNote where
  description : String
  evidence : BreakEvidence
deriving DecidableEq, Repr

structure BreakDraft extends BreakNote where
  type : BreakType
  severity : BreakSeverity
  dedupeKey : String
  effectiveDate : String
  endToEndId : Option String
  amountCents : Option Int
  deltaCents : Option Int
  providerItemId : Option String
  localItemId : Option String
  ledgerItemId : Option String
  autoResolution : Option AutoResolutionIntent
deriving DecidableEq, Repr

def statusText : TransactionStatus → String
  | .CREATED => "CREATED"
  | .PENDING => "PENDING"
  | .PROCESSING => "PROCESSING"
  | .SETTLED => "SETTLED"
  | .FAILED => "FAILED"
  | .CANCELLED => "CANCELLED"
  | .REVERSED => "REVERSED"
  | .PARTIALLY_REVERSED => "PARTIALLY_REVERSED"
  | .UNKNOWN => "UNKNOWN"

/-- An empty text counts as absent. -/
def present (text : Option String) : Option String := text.filter (· ≠ "")

structure DedupeInput where
  endToEndId : Option String := none
  accountId : String
  providerItemId : Option String := none
  localItemId : Option String := none
  ledgerItemId : Option String := none
  isBalanceBreak : Bool := false

def dedupeKeyFor (input : DedupeInput) : String :=
  match present input.endToEndId with
  | some endToEndId => "e2e:" ++ endToEndId
  | none =>
    if input.isBalanceBreak then "bal:" ++ input.accountId
    else
      match present input.providerItemId with
      | some providerItemId => "pitem:" ++ providerItemId
      | none =>
        match present (input.localItemId.orElse fun _ => input.ledgerItemId) with
        | some itemId => "litem:" ++ itemId
        | none => "acct:" ++ input.accountId

/-- The tolerance in cents: basis points rounded up, one cent at least. -/
def amountTolerance (amountCents basisPoints : Int) : Int :=
  let proporcional := ((if amountCents < 0 then -amountCents else amountCents) * basisPoints + 9999).tdiv
    10000
  if proporcional > 1 then proporcional else 1

def missingOnLocalSeverity (item : NormalizedItem) : BreakSeverity :=
  if item.direction = .CREDIT then .HIGH else .CRITICAL

def missingOnProviderSeverity (item : NormalizedItem) : BreakSeverity :=
  if item.direction = .DEBIT then .CRITICAL else .HIGH

def amountMismatchSeverity (deltaCents : Int) (policy : ReconciliationPolicy) : BreakSeverity :=
  if (if deltaCents < 0 then -deltaCents else deltaCents) > policy.criticalAmountDeltaCents then .CRITICAL
  else .MEDIUM

def providerIsAhead (localStatus provider : TransactionStatus) : Bool :=
  localStatus ≠ provider && decide (transactionRanks localStatus < transactionRanks provider) &&
    (checkTransition transactionTransitions localStatus provider).allowed

def localClaimsSettledButProviderFailed (localStatus provider : TransactionStatus) : Bool :=
  localStatus = .SETTLED && (provider = .FAILED || provider = .CANCELLED)

def statusMismatchSeverity (localStatus provider : TransactionStatus) : BreakSeverity :=
  if localClaimsSettledButProviderFailed localStatus provider then .CRITICAL else .MEDIUM

def importIntent (item : NormalizedItem) (ambiguous : Bool) : Option AutoResolutionIntent :=
  if ambiguous then none
  else if item.direction ≠ .CREDIT then none
  else if item.side ≠ .PROVIDER then none
  else some (.importFromProvider item.id)

def statusIntent (localItemId : String) (localStatus provider : TransactionStatus) :
    Option AutoResolutionIntent :=
  if providerIsAhead localStatus provider then
    some (.markProviderAuthoritative localItemId localStatus provider)
  else none

def timingIntent (localItemId providerItemId : String) (driftBusinessDays : Int)
    (policy : ReconciliationPolicy) : Option AutoResolutionIntent :=
  if driftBusinessDays > policy.autoResolveDateWithinBusinessDays then none
  else some (.ignoreTimingDifference localItemId providerItemId driftBusinessDays)

def dateMismatchSeverity (driftBusinessDays : Int) (policy : ReconciliationPolicy) : BreakSeverity :=
  if driftBusinessDays ≤ policy.autoResolveDateWithinBusinessDays then .LOW else .MEDIUM

def orphanProviderBreakType (item : NormalizedItem) : BreakType :=
  if item.type = "FEE" then .UNMATCHED_FEE
  else if item.type = "REFUND" then .ORPHAN_REFUND
  else .MISSING_ON_LOCAL

def orphanProviderSeverity (item : NormalizedItem) : BreakSeverity :=
  match orphanProviderBreakType item with
  | .UNMATCHED_FEE => .MEDIUM
  | .ORPHAN_REFUND => .HIGH
  | _ => missingOnLocalSeverity item

abbrev Pool := Table String NormalizedItem

/-- The items by id; of two under one id the later one stands. -/
def indexar (items : List NormalizedItem) : Pool :=
  items.foldl (fun pool item => pool.set item.id item) .empty

theorem indexar_get {items : List NormalizedItem} {id : String} {item : NormalizedItem}
    (h : (indexar items).get id = some item) : item ∈ items ∧ item.id = id := by
  suffices hs : ∀ pool : Pool, (items.foldl (fun pool item => pool.set item.id item) pool).get id =
      some item → pool.get id = some item ∨ (item ∈ items ∧ item.id = id) by
    obtain h | h := hs .empty h
    · simp at h
    · exact h
  clear h
  intro pool
  induction items generalizing pool with
  | nil => exact fun h => .inl h
  | cons i items ih =>
    intro h
    obtain h | h := ih (pool.set i.id i) h
    · rw [Table.get_set] at h
      by_cases hi : id = i.id
      · rw [if_pos hi, Option.some.injEq] at h
        exact .inr ⟨by simp [h], by rw [← h, hi]⟩
      · rw [if_neg hi] at h
        exact .inl h
    · exact .inr ⟨List.mem_cons_of_mem _ h.1, h.2⟩

/-- The movement of an item as the client sees it: a credit counts up. -/
def signed (item : NormalizedItem) : Int :=
  if item.direction = .CREDIT then item.amountCents else -item.amountCents

end BaasConnector.Reconciliation.Items
