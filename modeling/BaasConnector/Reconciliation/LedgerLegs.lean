import BaasConnector.Reconciliation.Effects

namespace BaasConnector.Reconciliation.LedgerLegs

open BaasConnector.Lib.Keyed BaasConnector.Taxonomy.Status BaasConnector.Connector.Records
open BaasConnector.Reconciliation.Items BaasConnector.Reconciliation.Passes
open BaasConnector.Reconciliation.Motor BaasConnector.Reconciliation.Effects

variable (runtime : Runtime) (policy : ReconciliationPolicy) (allLocal ledger : Pool)

/-- The local item of a match. -/
def localOf (link : MatchLink) : Option NormalizedItem := (present link.localItemId).bind allLocal.get

/-- The ledger items of the transaction that a local item names, smallest id first. -/
def legsOf (c : NormalizedItem) : List NormalizedItem :=
  (grupoDe runtime (indexarPorTransacao ledger) c).getD []

def legBreaks (c l : NormalizedItem) : List BreakDraft :=
  (if l.amountCents ≠ c.amountCents then [ledgerAmountBreak c l] else []) ++
    (if l.effectiveDate ≠ c.effectiveDate then [ledgerDateBreak policy c l] else [])

def crossedLink (link : MatchLink) : MatchLink :=
  match (localOf allLocal link).bind fun c => (legsOf runtime ledger c).head? with
  | some l => { link with ledgerItemId := some l.id }
  | none => link

def crossedBreaks (link : MatchLink) : List BreakDraft :=
  match localOf allLocal link with
  | none => []
  | some c =>
    match (legsOf runtime ledger c).head? with
    | some l => legBreaks policy c l
    | none => [missingLedgerBreak c]

def crossedTaken (link : MatchLink) : List String :=
  match localOf allLocal link with
  | none => []
  | some c => ids (legsOf runtime ledger c)

/-- The ledger item is of the transaction that the local item names. -/
def Names (c l : NormalizedItem) : Prop := present c.ledgerTransactionId = some (ledgerKey l)

instance (c l : NormalizedItem) : Decidable (Names c l) := inferInstanceAs (Decidable (_ = _))

theorem mem_legsOf {c l : NormalizedItem} : l ∈ legsOf runtime ledger c ↔ l ∈ ledger.values ∧ Names c l := by
  have hgroup : indexarPorTransacao ledger = group (fun item => some (ledgerKey item)) ledger.values :=
    groupBy_eq _ _
  rw [legsOf, grupoDe, hgroup, Names]
  cases present c.ledgerTransactionId with
  | none => simp
  | some k =>
    rw [Option.bind_some, group_get, Option.some.injEq]
    have hunder : l ∈ under (fun item => some (ledgerKey item)) k ledger.values ↔
        l ∈ ledger.values ∧ k = ledgerKey l := by
      rw [mem_under, Option.some.injEq, eq_comm (a := k)]
    split
    · next hnil =>
      rw [← hunder, hnil]
      simp
    · rw [← hunder, Option.map_some, Option.getD_some, List.mem_insertionSort]

theorem consumir_eq (pool : Pool) (grupo : List NormalizedItem) :
    consumir pool grupo = pool.deleteAll (ids grupo) := by
  rw [consumir, Table.deleteAll, ids, List.foldl_map]

variable {policy allLocal ledger}

theorem crossStep_eq (s : LedgerCrossState) (link : MatchLink) :
    crossStep runtime policy allLocal (indexarPorTransacao ledger) s link =
      { matched := s.matched ++ [crossedLink runtime allLocal ledger link]
        breaks := s.breaks ++ crossedBreaks runtime policy allLocal ledger link
        ledger := s.ledger.deleteAll (crossedTaken runtime allLocal ledger link) } := by
  unfold crossStep crossedLink crossedBreaks crossedTaken
  have hlocal : (present link.localItemId).bind allLocal.get = localOf allLocal link := rfl
  rw [hlocal]
  cases localOf allLocal link with
  | none => simp [Table.deleteAll]
  | some c =>
    have hlegs : legsOf runtime ledger c = (grupoDe runtime (indexarPorTransacao ledger) c).getD [] := rfl
    cases hg : grupoDe runtime (indexarPorTransacao ledger) c with
    | none => simp [hlegs, hg, ids, Table.deleteAll]
    | some grupo =>
      cases grupo with
      | nil => simp [hlegs, hg, ids, Table.deleteAll]
      | cons l grupo =>
        simp [hlegs, hg, consumir_eq, conferirPerna, legBreaks, List.append_assoc]

theorem foldl_crossStep (links : List MatchLink) (s : LedgerCrossState) :
    links.foldl (crossStep runtime policy allLocal (indexarPorTransacao ledger)) s =
      { matched := s.matched ++ links.map (crossedLink runtime allLocal ledger)
        breaks := s.breaks ++ links.flatMap (crossedBreaks runtime policy allLocal ledger)
        ledger := s.ledger.deleteAll (links.flatMap (crossedTaken runtime allLocal ledger)) } := by
  induction links generalizing s with
  | nil => simp [Table.deleteAll]
  | cons link links ih =>
    rw [List.foldl_cons, ih, crossStep_eq]
    simp [List.append_assoc, Table.deleteAll_append]

theorem foldl_consumeLocal (cs : List NormalizedItem) (pool : Pool) :
    cs.foldl (consumeLocal runtime (indexarPorTransacao ledger)) pool =
      pool.deleteAll (cs.flatMap fun c => ids (legsOf runtime ledger c)) := by
  induction cs generalizing pool with
  | nil => rfl
  | cons c cs ih =>
    have hstep : consumeLocal runtime (indexarPorTransacao ledger) pool c =
        pool.deleteAll (ids (legsOf runtime ledger c)) := by
      unfold consumeLocal legsOf
      cases grupoDe runtime (indexarPorTransacao ledger) c with
      | none => rfl
      | some grupo => exact consumir_eq pool grupo
    rw [List.foldl_cons, ih, hstep, List.flatMap_cons, Table.deleteAll_append]

/-- The ledger items that no match and no local item has taken. -/
def orphans (allLocal ledger : Pool) (links : List MatchLink) : List NormalizedItem :=
  ((ledger.deleteAll (links.flatMap (crossedTaken runtime allLocal ledger))).deleteAll
    (allLocal.values.flatMap fun c => ids (legsOf runtime ledger c))).values

theorem passLedgerCross_eq (policy : ReconciliationPolicy) (allLocal ledger : Pool)
    (links : List MatchLink) (breaks : List BreakDraft) :
    (passLedgerCross runtime policy allLocal links breaks ledger).matched =
        links.map (crossedLink runtime allLocal ledger) ∧
      (passLedgerCross runtime policy allLocal links breaks ledger).breaks =
        breaks ++ links.flatMap (crossedBreaks runtime policy allLocal ledger) ++
          ((orphans runtime allLocal ledger links).insertionSort (byId runtime)).map orphanBreak := by
  unfold passLedgerCross orphans
  dsimp only
  rw [foldl_crossStep, foldl_consumeLocal]
  exact ⟨List.nil_append _, rfl⟩

/-- The ledger pass adds to a match the item of the ledger, and nothing else. -/
theorem crossedLink_same (allLocal ledger : Pool) (link : MatchLink) :
    (crossedLink runtime allLocal ledger link).providerItemId = link.providerItemId ∧
      (crossedLink runtime allLocal ledger link).localItemId = link.localItemId ∧
      (crossedLink runtime allLocal ledger link).confidence = link.confidence ∧
      (crossedLink runtime allLocal ledger link).pass = link.pass ∧
      (crossedLink runtime allLocal ledger link).needsReview = link.needsReview := by
  unfold crossedLink
  split <;> exact ⟨rfl, rfl, rfl, rfl, rfl⟩

/-- What the ledger pass opens for a match. -/
theorem mem_crossedBreaks {link : MatchLink} {b : BreakDraft} :
    b ∈ crossedBreaks runtime policy allLocal ledger link ↔ ∃ c, localOf allLocal link = some c ∧
      (((legsOf runtime ledger c).head? = none ∧ b = missingLedgerBreak c) ∨
        ∃ l, (legsOf runtime ledger c).head? = some l ∧ b ∈ legBreaks policy c l) := by
  unfold crossedBreaks
  cases localOf allLocal link with
  | none => simp
  | some c =>
    simp only [Option.some.injEq, exists_eq_left']
    cases (legsOf runtime ledger c).head? <;> simp

theorem mem_legBreaks {c l : NormalizedItem} {b : BreakDraft} : b ∈ legBreaks policy c l ↔
    (l.amountCents ≠ c.amountCents ∧ b = ledgerAmountBreak c l) ∨
      (l.effectiveDate ≠ c.effectiveDate ∧ b = ledgerDateBreak policy c l) := by
  rw [legBreaks, List.mem_append, List.mem_ite_nil_right, List.mem_ite_nil_right, List.mem_singleton,
    List.mem_singleton]

end BaasConnector.Reconciliation.LedgerLegs
