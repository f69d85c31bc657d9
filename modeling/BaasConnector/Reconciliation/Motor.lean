import BaasConnector.Reconciliation.Passes

namespace BaasConnector.Reconciliation.Motor

open BaasConnector.Lib.Keyed BaasConnector.Taxonomy.Status BaasConnector.Connector.Records
open BaasConnector.Reconciliation.Items BaasConnector.Reconciliation.Passes

variable (runtime : Runtime)

section Windowed

def dentroDaJanela (policy : ReconciliationPolicy) (p c : NormalizedItem) : Bool :=
  let proporcional := amountTolerance c.amountCents policy.amountToleranceBasisPoints
  let tolerancia :=
    if policy.amountToleranceCents > proporcional then policy.amountToleranceCents else proporcional
  decide (p.accountId = c.accountId) && decide (p.direction = c.direction) &&
    decide (((p.amountCents - c.amountCents).natAbs : Int) ≤ tolerancia) &&
    decide (((policy.businessDaysBetween c.effectiveDate p.effectiveDate).natAbs : Int) ≤
      policy.dateToleranceBusinessDays)

def missingLocalBreak (p : NormalizedItem) (ambiguo : Bool) : BreakDraft :=
  { type := orphanProviderBreakType p
    severity := orphanProviderSeverity p
    dedupeKey := dedupeKeyFor
      { endToEndId := p.endToEndId, accountId := p.accountId, providerItemId := some p.id }
    effectiveDate := p.effectiveDate
    endToEndId := p.endToEndId
    amountCents := some p.amountCents
    deltaCents := none
    providerItemId := some p.id
    localItemId := none
    ledgerItemId := none
    description :=
      if ambiguo then "Movimento do provedor com mais de um candidato local na janela"
      else "Movimento no provedor sem registro correspondente no conector"
    evidence := .movimento p.type p.direction ambiguo p.amountCents
    autoResolution :=
      if orphanProviderBreakType p = .MISSING_ON_LOCAL then importIntent p ambiguo else none }

def faltaNoLocal (s : PassState) (p : NormalizedItem) (ambiguo : Bool) : PassState :=
  (s.drop .PROVIDER p.id).addBreak (missingLocalBreak p ambiguo)

def windowedStep (policy : ReconciliationPolicy) (s : PassState) (p : NormalizedItem) : PassState :=
  if (s.provider.get p.id).isNone then s
  else
    match (s.localPool.values.filter (dentroDaJanela policy p)).insertionSort (byId runtime) with
    | [c] => s.pair p c .LOW 3 true
    | [] => faltaNoLocal s p false
    | _ => faltaNoLocal s p true

def missingProviderBreak (now : Int) (c : NormalizedItem) : BreakDraft :=
  { type := .MISSING_ON_PROVIDER
    severity := missingOnProviderSeverity c
    dedupeKey := dedupeKeyFor
      { endToEndId := c.endToEndId, accountId := c.accountId, localItemId := some c.id }
    effectiveDate := c.effectiveDate
    endToEndId := c.endToEndId
    amountCents := some c.amountCents
    deltaCents := none
    providerItemId := none
    localItemId := some c.id
    ledgerItemId := none
    description := "Registro do conector sem movimento correspondente no provedor"
    evidence := .registro c.type c.direction c.status ((now - c.postedAt) / 60000)
    autoResolution := none }

/-- A local item younger than the settlement grace is pending, not missing. -/
def faltaNoProvedor (policy : ReconciliationPolicy) (now : Int) (s : PassState) (c : NormalizedItem) :
    PassState :=
  let s := s.drop .LOCAL c.id
  if now - c.postedAt < policy.settlementGraceMinutes * 60000 then
    { s with pendingSettlement := s.pendingSettlement ++ [c.id] }
  else s.addBreak (missingProviderBreak now c)

def passWindowedFuzzy (policy : ReconciliationPolicy) (now : Int) (s : PassState) : PassState :=
  let s := (s.provider.values.insertionSort (byId runtime)).foldl (windowedStep runtime policy) s
  (s.localPool.values.insertionSort (byId runtime)).foldl (faltaNoProvedor policy now) s

end Windowed

section LedgerCross

structure LedgerCrossState where
  matched : List MatchLink
  breaks : List BreakDraft
  ledger : Pool

def ledgerKey (item : NormalizedItem) : String := item.ledgerTransactionId.getD item.id

def indexarPorTransacao (ledger : Pool) : Table String (List NormalizedItem) :=
  groupBy (fun item => some (ledgerKey item)) ledger.values

/-- The group of a local item, smallest id first. -/
def grupoDe (porTransacao : Table String (List NormalizedItem)) (c : NormalizedItem) :
    Option (List NormalizedItem) :=
  (present c.ledgerTransactionId).bind fun id =>
    (porTransacao.get id).map (List.insertionSort (byId runtime))

/-- Take a whole group out of the pool. -/
def consumir (ledger : Pool) (grupo : List NormalizedItem) : Pool :=
  grupo.foldl (fun pool item => pool.delete item.id) ledger

def missingLedgerBreak (c : NormalizedItem) : BreakDraft :=
  { type := .MISSING_ON_LEDGER
    severity := .CRITICAL
    dedupeKey := dedupeKeyFor
      { endToEndId := c.endToEndId, accountId := c.accountId, localItemId := some c.id }
    effectiveDate := c.effectiveDate
    endToEndId := c.endToEndId
    amountCents := some c.amountCents
    deltaCents := none
    providerItemId := none
    localItemId := some c.id
    ledgerItemId := none
    description := "Transacao casada com o provedor e sem lancamento no razao sombra"
    evidence := .lancamento c.ledgerTransactionId c.direction c.amountCents
    autoResolution := none }

def ledgerAmountBreak (c l : NormalizedItem) : BreakDraft :=
  { type := .AMOUNT_MISMATCH
    severity := .CRITICAL
    dedupeKey := dedupeKeyFor
      { endToEndId := c.endToEndId, accountId := c.accountId, localItemId := some c.id }
    effectiveDate := c.effectiveDate
    endToEndId := c.endToEndId
    amountCents := some c.amountCents
    deltaCents := some (l.amountCents - c.amountCents)
    providerItemId := none
    localItemId := some c.id
    ledgerItemId := some l.id
    description := "Lancamento do razao sombra diverge em valor do registro canonico"
    evidence := .valorDoRazao l.amountCents c.amountCents (l.amountCents - c.amountCents)
    autoResolution := none }

def ledgerDateBreak (policy : ReconciliationPolicy) (c l : NormalizedItem) : BreakDraft :=
  { type := .DATE_MISMATCH
    severity := .MEDIUM
    dedupeKey := dedupeKeyFor
      { endToEndId := c.endToEndId, accountId := c.accountId, localItemId := some c.id }
    effectiveDate := c.effectiveDate
    endToEndId := c.endToEndId
    amountCents := some c.amountCents
    deltaCents := none
    providerItemId := none
    localItemId := some c.id
    ledgerItemId := some l.id
    description := "Lancamento do razao sombra em data efetiva diferente do registro canonico"
    evidence := .dataDoRazao l.effectiveDate c.effectiveDate
      (policy.businessDaysBetween c.effectiveDate l.effectiveDate)
    autoResolution := none }

def conferirPerna (policy : ReconciliationPolicy) (breaks : List BreakDraft) (c l : NormalizedItem) :
    List BreakDraft :=
  breaks ++ (if l.amountCents ≠ c.amountCents then [ledgerAmountBreak c l] else []) ++
    (if l.effectiveDate ≠ c.effectiveDate then [ledgerDateBreak policy c l] else [])

def crossStep (policy : ReconciliationPolicy) (allLocal : Pool)
    (porTransacao : Table String (List NormalizedItem)) (s : LedgerCrossState) (link : MatchLink) :
    LedgerCrossState :=
  match (present link.localItemId).bind allLocal.get with
  | none => { s with matched := s.matched ++ [link] }
  | some c =>
    match grupoDe runtime porTransacao c with
    | some (l :: grupo) =>
      { matched := s.matched ++ [{ link with ledgerItemId := some l.id }]
        breaks := conferirPerna policy s.breaks c l
        ledger := consumir s.ledger (l :: grupo) }
    | _ => { s with matched := s.matched ++ [link], breaks := s.breaks ++ [missingLedgerBreak c] }

def consumeLocal (porTransacao : Table String (List NormalizedItem)) (ledger : Pool)
    (c : NormalizedItem) : Pool :=
  match grupoDe runtime porTransacao c with
  | some grupo => consumir ledger grupo
  | none => ledger

def orphanBreak (l : NormalizedItem) : BreakDraft :=
  { type := .MISSING_ON_LOCAL
    severity := .CRITICAL
    dedupeKey := dedupeKeyFor { accountId := l.accountId, ledgerItemId := some l.id }
    effectiveDate := l.effectiveDate
    endToEndId := none
    amountCents := some l.amountCents
    deltaCents := none
    providerItemId := none
    localItemId := none
    ledgerItemId := some l.id
    description := "Lancamento no razao sombra sem transacao correspondente"
    evidence := .lancamento l.ledgerTransactionId l.direction l.amountCents
    autoResolution := none }

/-- Matched pairs against the ledger, then the ledger items that are left. -/
def passLedgerCross (policy : ReconciliationPolicy) (allLocal : Pool) (links : List MatchLink)
    (breaks : List BreakDraft) (ledger : Pool) : LedgerCrossState :=
  let porTransacao := indexarPorTransacao ledger
  let s := links.foldl (crossStep runtime policy allLocal porTransacao) ⟨[], breaks, ledger⟩
  let left := allLocal.values.foldl (consumeLocal runtime porTransacao) s.ledger
  { s with
    breaks := s.breaks ++ (left.values.insertionSort (byId runtime)).map orphanBreak
    ledger := left }

end LedgerCross

section Balance

structure BalanceResult where
  openingCents : Option Int
  matchedMovementCents : Int
  expectedClosingCents : Option Int
  providerClosingCents : Option Int
  ledgerClosingCents : Option Int
  balanceDeltaCents : Option Int
  skippedReason : Option String
deriving DecidableEq, Repr

/-- The matched movement, summed on the provider's side. -/
def matchedMovement (allProvider : Pool) (links : List MatchLink) : Int :=
  links.foldl (fun movimento link =>
    match (present link.providerItemId).bind allProvider.get with
    | some p => movimento + signed p
    | none => movimento) 0

def balanceBreak (input : ReconciliationInput) (abertura movimento fechamento : Int) : BreakDraft :=
  let esperado := abertura + movimento
  let residuo := fechamento - esperado
  { type := .BALANCE_MISMATCH
    severity := .CRITICAL
    dedupeKey := dedupeKeyFor { accountId := input.accountId, isBalanceBreak := true }
    effectiveDate := runtime.localDate input.windowEnd
    endToEndId := none
    amountCents := none
    deltaCents := some residuo
    providerItemId := none
    localItemId := none
    ledgerItemId := none
    description := "Saldo de fechamento do provedor nao fecha com os movimentos casados"
    evidence := .saldo abertura movimento esperado fechamento input.balances.ledgerClosingCents residuo
    autoResolution := none }

def passBalance (input : ReconciliationInput) (links : List MatchLink) (breaks : List BreakDraft)
    (allProvider : Pool) : BalanceResult × List BreakDraft :=
  let b := input.balances
  let movimento := matchedMovement allProvider links
  let delta := b.providerClosingCents.bind fun closing => b.ledgerClosingCents.map (closing - ·)
  let base : BalanceResult :=
    { openingCents := b.providerOpeningCents
      matchedMovementCents := movimento
      expectedClosingCents := none
      providerClosingCents := b.providerClosingCents
      ledgerClosingCents := b.ledgerClosingCents
      balanceDeltaCents := delta
      skippedReason := none }
  match b.providerOpeningCents, b.providerClosingCents with
  | none, _ => ({ base with skippedReason := some "no_provider_opening" }, breaks)
  | some _, none => ({ base with skippedReason := some "no_provider_closing" }, breaks)
  | some opening, some closing =>
    let residuo := closing - (opening + movimento)
    let resultado := { base with expectedClosingCents := some (opening + movimento) }
    if residuo = 0 then (resultado, breaks)
    else if ¬ breaks.isEmpty then (resultado, breaks)
    else (resultado, breaks ++ [balanceBreak runtime input opening movimento closing])

end Balance

structure ReconciliationResult where
  matched : List MatchLink
  breaks : List BreakDraft
  balance : BalanceResult
  pendingSettlement : List String

/-- The motor: five passes, each on the pool that the one before has left. -/
def reconcile (input : ReconciliationInput) : ReconciliationResult :=
  let start : PassState := ⟨indexar input.provider, indexar input.localItems, [], [], []⟩
  let s := passWindowedFuzzy runtime input.policy input.now
    (passDeterministicFuzzy runtime input.policy (passStrong runtime input.policy start))
  let cross := passLedgerCross runtime input.policy (indexar input.localItems) s.matched s.breaks
    (indexar input.ledger)
  let balance := passBalance runtime input cross.matched cross.breaks (indexar input.provider)
  ⟨cross.matched, balance.2, balance.1, s.pendingSettlement⟩

end BaasConnector.Reconciliation.Motor
