import BaasConnector.Reconciliation.Items
import Mathlib.Data.List.Sort

namespace BaasConnector.Reconciliation.Passes

open BaasConnector.Lib.Keyed BaasConnector.Taxonomy.Status BaasConnector.Connector.Records
open BaasConnector.Reconciliation.Items

/-- What the motor takes from its runtime: the collation of texts and the local
date of an instant. -/
structure Runtime where
  localeCompare : String → String → Int
  localDate : Int → String

structure PassState where
  provider : Pool
  localPool : Pool
  matched : List MatchLink
  breaks : List BreakDraft
  pendingSettlement : List String

namespace PassState

def addBreak (s : PassState) (b : BreakDraft) : PassState := { s with breaks := s.breaks ++ [b] }

/-- Take a pair out of both pools. -/
def pair (s : PassState) (p c : NormalizedItem) (confidence : MatchConfidence) (pass : Nat)
    (needsReview : Bool) : PassState :=
  { s with
    provider := s.provider.delete p.id
    localPool := s.localPool.delete c.id
    matched := s.matched ++ [⟨some p.id, some c.id, none, confidence, pass, needsReview⟩] }

def drop (s : PassState) (lado : ReconciliationSide) (id : String) : PassState :=
  if lado = .LOCAL then { s with localPool := s.localPool.delete id }
  else { s with provider := s.provider.delete id }

end PassState

variable (runtime : Runtime) (policy : ReconciliationPolicy)

def byId (a b : NormalizedItem) : Prop := runtime.localeCompare a.id b.id ≤ 0

def byInstant (a b : NormalizedItem) : Prop :=
  a.postedAt < b.postedAt ∨ (a.postedAt = b.postedAt ∧ byId runtime a b)

instance : DecidableRel (byId runtime) := fun a b =>
  inferInstanceAs (Decidable (runtime.localeCompare a.id b.id ≤ 0))

instance : DecidableRel (byInstant runtime) := fun a b =>
  inferInstanceAs (Decidable (a.postedAt < b.postedAt ∨ (a.postedAt = b.postedAt ∧ byId runtime a b)))

/-- The items under each key, keys in the order of their first item. -/
def groupBy (key : NormalizedItem → Option String) (items : List NormalizedItem) :
    Table String (List NormalizedItem) :=
  items.foldl (fun groups item =>
    match key item with
    | none => groups
    | some k => groups.set k (((groups.get k).getD []) ++ [item])) .empty

section Strong

def indexBy (items : Pool) (prefixo : String) : Table String (List NormalizedItem) :=
  groupBy (fun item => item.matchKeyStrong.filter fun key => prefixo.toList.isPrefixOf key.toList)
    items.values

def escolherMaisAntigo (items : List NormalizedItem) : Option NormalizedItem :=
  (items.insertionSort (byInstant runtime)).head?

def duplicateBreak (tipo : BreakType) (lado : ReconciliationSide) (duplicado : NormalizedItem × BreakNote) :
    BreakDraft :=
  let item := duplicado.1
  let providerItemId := if lado = .PROVIDER then some item.id else none
  let localItemId := if lado = .LOCAL then some item.id else none
  { duplicado.2 with
    type := tipo
    severity := .HIGH
    dedupeKey := dedupeKeyFor
      { endToEndId := item.endToEndId, accountId := item.accountId, providerItemId, localItemId }
    effectiveDate := item.effectiveDate
    endToEndId := item.endToEndId
    amountCents := some item.amountCents
    deltaCents := none
    providerItemId
    localItemId
    ledgerItemId := none
    autoResolution := none }

def reportDuplicates (s : PassState) (tipo : BreakType) (lado : ReconciliationSide)
    (duplicados : List (NormalizedItem × BreakNote)) : PassState :=
  duplicados.foldl (fun s d => (s.drop lado d.1.id).addBreak (duplicateBreak tipo lado d)) s

def sameKeyNote (chave : String) (primeiro : NormalizedItem) (lado : ReconciliationSide) : BreakNote :=
  ⟨"Mais de um registro com a mesma chave forte " ++ chave, .mesmaChave chave primeiro.id lado⟩

def duplicatesOf (s : PassState) (tipo : BreakType) (lado : ReconciliationSide)
    (lista : List NormalizedItem) (chave : String) : PassState :=
  match escolherMaisAntigo runtime lista with
  | some primeiro =>
    if lista.length ≤ 1 then s
    else reportDuplicates s tipo lado
      ((lista.filter fun item => item.id ≠ primeiro.id).map fun item =>
        (item, sameKeyNote chave primeiro lado))
  | none => s

def duplicates (s : PassState) (doProvedor doLocal : List NormalizedItem) (chave : String) : PassState :=
  duplicatesOf runtime (duplicatesOf runtime s .DUPLICATE_LOCAL .LOCAL doLocal chave)
    .DUPLICATE_PROVIDER .PROVIDER doProvedor chave

def amountBreak (p c : NormalizedItem) : BreakDraft :=
  { type := .AMOUNT_MISMATCH
    severity := amountMismatchSeverity (p.amountCents - c.amountCents) policy
    dedupeKey := dedupeKeyFor
      { endToEndId := p.endToEndId, accountId := p.accountId, localItemId := some c.id }
    effectiveDate := c.effectiveDate
    endToEndId := p.endToEndId
    amountCents := some c.amountCents
    deltaCents := some (p.amountCents - c.amountCents)
    providerItemId := some p.id
    localItemId := some c.id
    ledgerItemId := none
    description := "Valor do provedor diverge do nosso registro"
    evidence := .valor p.amountCents c.amountCents (p.amountCents - c.amountCents)
    autoResolution := none }

def statusBreak (p c : NormalizedItem) (providerStatus localStatus : TransactionStatus) : BreakDraft :=
  { type := .STATUS_MISMATCH
    severity := statusMismatchSeverity localStatus providerStatus
    dedupeKey := dedupeKeyFor
      { endToEndId := p.endToEndId, accountId := p.accountId, localItemId := some c.id }
    effectiveDate := c.effectiveDate
    endToEndId := p.endToEndId
    amountCents := some c.amountCents
    deltaCents := none
    providerItemId := some p.id
    localItemId := some c.id
    ledgerItemId := none
    description := "Provedor diz " ++ statusText providerStatus ++ ", nosso registro diz " ++
      statusText localStatus
    evidence := .situacao providerStatus localStatus
    autoResolution := statusIntent c.id localStatus providerStatus }

def dateBreak (p c : NormalizedItem) : BreakDraft :=
  let drift := policy.businessDaysBetween c.effectiveDate p.effectiveDate
  { type := .DATE_MISMATCH
    severity := dateMismatchSeverity drift policy
    dedupeKey := dedupeKeyFor
      { endToEndId := p.endToEndId, accountId := p.accountId, localItemId := some c.id }
    effectiveDate := c.effectiveDate
    endToEndId := p.endToEndId
    amountCents := some c.amountCents
    deltaCents := none
    providerItemId := some p.id
    localItemId := some c.id
    ledgerItemId := none
    description := "Data efetiva diverge em " ++ toString drift ++ " dia(s) util(eis)"
    evidence := .data p.effectiveDate c.effectiveDate drift
    autoResolution := timingIntent c.id p.id drift policy }

def compareAmounts (s : PassState) (p c : NormalizedItem) : PassState :=
  if p.amountCents ≠ c.amountCents then s.addBreak (amountBreak policy p c) else s

def compareStatuses (s : PassState) (p c : NormalizedItem) : PassState :=
  match p.status, c.status with
  | some ps, some cs => if ps ≠ cs then s.addBreak (statusBreak p c ps cs) else s
  | _, _ => s

def compareDates (s : PassState) (p c : NormalizedItem) : PassState :=
  if p.effectiveDate ≠ c.effectiveDate then s.addBreak (dateBreak policy p c) else s

def compareAttributes (s : PassState) (p c : NormalizedItem) : PassState :=
  compareDates policy (compareStatuses (compareAmounts policy s p c) p c) p c

def strongKeyStep (locais : Table String (List NormalizedItem)) (s : PassState)
    (entry : String × List NormalizedItem) : PassState :=
  match locais.get entry.1 with
  | none => s
  | some doLocal =>
    if doLocal.isEmpty then s
    else
      let s := duplicates runtime s entry.2 doLocal entry.1
      match escolherMaisAntigo runtime entry.2, escolherMaisAntigo runtime doLocal with
      | some p, some c => compareAttributes policy (s.pair p c .EXACT 1 false) p c
      | _, _ => s

def strongPrefix (s : PassState) (prefixo : String) : PassState :=
  (indexBy s.provider prefixo).rows.foldl (strongKeyStep runtime policy (indexBy s.localPool prefixo)) s

/-- The E2EID before the provider's transaction id. -/
def passStrong (s : PassState) : PassState :=
  ["e2e:", "ptx:"].foldl (strongPrefix runtime policy) s

end Strong

section Deterministic

def distance (p c : NormalizedItem) : Nat := (p.postedAt - c.postedAt).natAbs

/-- Nearest instants first, ids break the tie. -/
def nearer (a b : NormalizedItem × NormalizedItem) : Prop :=
  distance a.1 a.2 < distance b.1 b.2 ∨ (distance a.1 a.2 = distance b.1 b.2 ∧
    (runtime.localeCompare a.1.id b.1.id < 0 ∨ (runtime.localeCompare a.1.id b.1.id = 0 ∧
      runtime.localeCompare a.2.id b.2.id ≤ 0)))

instance : DecidableRel (nearer runtime) := fun _ _ => inferInstanceAs (Decidable (_ ∨ _))

def takePairs : List (NormalizedItem × NormalizedItem) → List String → List String →
    List (NormalizedItem × NormalizedItem)
  | [], _, _ => []
  | (p, c) :: rest, usadosP, usadosC =>
    if p.id ∈ usadosP ∨ c.id ∈ usadosC then takePairs rest usadosP usadosC
    else (p, c) :: takePairs rest (p.id :: usadosP) (c.id :: usadosC)

def casarGuloso (provedor localItems : List NormalizedItem) : List (NormalizedItem × NormalizedItem) :=
  takePairs ((provedor.flatMap fun p => localItems.map fun c => (p, c)).insertionSort (nearer runtime)) [] []

/-- The matched item of its own side that a leftover has the counterparty of. -/
def gemeoDe (casados : List NormalizedItem) (sobra : NormalizedItem) : Option NormalizedItem :=
  (present sobra.counterpartyTaxIdIndex).bind fun index =>
    casados.find? fun item => item.counterpartyTaxIdIndex = some index

def surplusNote (gemeo : NormalizedItem) (lado : ReconciliationSide) : BreakNote :=
  ⟨"Registro excedente com mesma conta, valor, data e contraparte", .excedente gemeo.id lado⟩

def leftoverDuplicates (s : PassState) (tipo : BreakType) (lado : ReconciliationSide)
    (todos casados : List NormalizedItem) : PassState :=
  reportDuplicates s tipo lado
    ((todos.filter fun item => decide (item.id ∉ casados.map (·.id))).filterMap fun sobra =>
      (gemeoDe casados sobra).map fun gemeo => (sobra, surplusNote gemeo lado))

def duplicatasSobrando (s : PassState) (pares : List (NormalizedItem × NormalizedItem))
    (provedor localItems : List NormalizedItem) : PassState :=
  leftoverDuplicates (leftoverDuplicates s .DUPLICATE_LOCAL .LOCAL localItems (pares.map Prod.snd))
    .DUPLICATE_PROVIDER .PROVIDER provedor (pares.map Prod.fst)

def fuzzyBucketStep (baldesP baldesC : Table String (List NormalizedItem)) (s : PassState)
    (chave : String) : PassState :=
  let provedor := ((baldesP.get chave).getD []).insertionSort (byInstant runtime)
  let localItems := ((baldesC.get chave).getD []).insertionSort (byInstant runtime)
  if provedor.isEmpty ∨ localItems.isEmpty then s
  else
    let ambiguo := decide (provedor.length > 1 ∨ localItems.length > 1)
    if ambiguo ∧ max provedor.length localItems.length > policy.maxGreedyPairs then s
    else
      let pares := casarGuloso runtime provedor localItems
      duplicatasSobrando (pares.foldl (fun s par => s.pair par.1 par.2 .HIGH 2 ambiguo) s) pares
        provedor localItems

/-- Buckets of one account, direction, amount and date, in the order of their keys. -/
def passDeterministicFuzzy (s : PassState) : PassState :=
  let baldesP := groupBy (fun item => some item.matchKeyFuzzy) s.provider.values
  let baldesC := groupBy (fun item => some item.matchKeyFuzzy) s.localPool.values
  let chaves := ((baldesP.rows ++ baldesC.rows).map Prod.fst).dedup.insertionSort (· ≤ ·)
  chaves.foldl (fuzzyBucketStep runtime policy baldesP baldesC) s

end Deterministic

end BaasConnector.Reconciliation.Passes
