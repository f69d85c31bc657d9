import BaasConnector.Connector.Replies
import BaasConnector.Ledger.Adjustments
import BaasConnector.Reconciliation.BreakResolution
import BaasConnector.Reconciliation.Origins
import BaasConnector.Pix.HoldResolution

namespace BaasConnector.Reconciliation.Adjustment

open BaasConnector.Lib.Effects BaasConnector.Lib.Keyed BaasConnector.Taxonomy.Status
open BaasConnector.Taxonomy.Errors BaasConnector.Ledger.Types BaasConnector.Ledger.MemoryStore
open BaasConnector.Ledger.Shadow BaasConnector.Ledger.Adjustments BaasConnector.Connector.Records
open BaasConnector.Connector.Calls BaasConnector.Connector.Database BaasConnector.Connector.Replies
open BaasConnector.Reconciliation.Items BaasConnector.Reconciliation.Passes
open BaasConnector.Reconciliation.Motor BaasConnector.Reconciliation.Origins
open BaasConnector.Reconciliation.BreakResolution

section Flow

variable {w : World} {quebra : ReconciliationBreakRecord}

/-- The delta that a break determines in a world. -/
def Determines (w : World) (quebra : ReconciliationBreakRecord) (delta : Int) : Prop :=
  quebra.deltaCents.filter (· ≠ 0) = some delta ∨
    (quebra.deltaCents.filter (· ≠ 0) = none ∧ ∃ itemId undo item,
      originItem quebra = some (itemId, undo) ∧ w.items.get itemId = some item ∧
        delta = signedItem item undo)

def adjustKey (breakId : String) : String := "recon-adjust:" ++ breakId

/-- What an approved adjustment has done: one command on the ledger of the
account, with the delta of the break. -/
structure Adjusted (w : World) (quebra : ReconciliationBreakRecord) (ledger : LedgerStore) (delta : Int)
    (accountId availableId : String) : Prop where
  determined : Determines w quebra delta
  nonzero : delta ≠ 0
  account : quebra.accountId = some accountId
  available : (w.accounts.get accountId).bind (·.ledgerAvailableAccountId) = some availableId
  posted : ∃ mint posted, (LedgerCommand.adjust availableId (if delta < 0 then -delta else delta)
    (decide (0 < delta)) (adjustKey quebra.id) (some quebra.id)).perform mint w.ledger =
      (.ok posted, ledger)

theorem wp_signedDelta :
    (signedDelta quebra).wp env (fun r w' => w' = w ∧ ∀ delta, r = .ok delta → Determines w quebra delta)
      w := by
  unfold signedDelta
  cases hd : quebra.deltaCents.filter (· ≠ 0) with
  | some delta =>
    exact ⟨rfl, fun d h => .inl (by rw [hd]; exact congrArg some (Except.ok.inj h))⟩
  | none =>
    cases ho : originItem quebra with
    | none => exact ⟨rfl, fun d h => by cases h⟩
    | some origin =>
      obtain ⟨itemId, undo⟩ := origin
      refine wp_read (fun _ => rfl) ?_ fun _ => ⟨rfl, fun d h => by cases h⟩
      cases hi : w.items.get itemId with
      | none => exact ⟨rfl, fun d h => by cases h⟩
      | some item =>
        refine ⟨rfl, fun d h => .inr ⟨hd, itemId, undo, item, ho, hi, ?_⟩⟩
        exact (Except.ok.inj h).symm

theorem wp_postAdjustment :
    (postAdjustment quebra).wp env (fun r w' => ∀ id, r = .ok id →
      ∃ delta accountId availableId, Adjusted w quebra w'.ledger delta accountId availableId) w := by
  unfold postAdjustment
  rw [Prog.bind_eq, Prog.wp_bind]
  refine Prog.wp_mono env wp_signedDelta fun r w' hr => ?_
  obtain ⟨rfl, hr⟩ := hr
  cases r with
  | error e => exact fun id h => by cases h
  | ok delta =>
    have hdelta := hr delta rfl
    rw [Prog.onOk_ok]
    cases ha : quebra.accountId with
    | none => exact fun id h => by cases h
    | some accountId =>
      by_cases hz : delta = 0
      · simp only [if_pos hz]
        exact fun id h => by cases h
      · simp only [if_neg hz]
        refine wp_read (fun _ => rfl) ?_ fun _ id h => by cases h
        cases hav : (w'.accounts.get accountId).bind (·.ledgerAvailableAccountId) with
        | none => exact fun id h => by cases h
        | some availableId =>
          dsimp only
          rw [Prog.bind_eq, Prog.wp_bind, Prog.wp_perform]
          intro r w'' henv
          obtain ⟨⟨message, rfl⟩, _⟩ | ⟨mint, _, hr, hw⟩ := env_ledger_command.mp henv
          · exact fun id h => by cases h
          · cases r with
            | error e => exact fun id h => by cases h
            | ok posted =>
              refine fun id _ => ⟨delta, accountId, availableId, hdelta, hz, ha, hav, mint, posted, ?_⟩
              rw [Prod.ext_iff]
              exact ⟨hr.symm, by rw [hw]; rfl⟩

theorem wp_resolveBreak {breakId : String} (hrow : w.breaks.get breakId = some quebra) :
    (resolveBreak breakId .CREATE_LEDGER_ADJUSTMENT).wp env (fun r w' => ∀ resolved, r = .ok resolved →
      ∃ delta accountId availableId, Adjusted w quebra w'.ledger delta accountId availableId) w := by
  unfold resolveBreak
  refine wp_read (fun _ => rfl) ?_ fun _ resolved h => by cases h
  rw [hrow]
  by_cases hclosed : quebra.status = .RESOLVED ∨ quebra.status = .WRITTEN_OFF
  · simp only [if_pos hclosed]
    exact fun resolved h => by cases h
  · simp only [if_neg hclosed, applyAction, Prog.bind_eq, Prog.bind_assoc]
    rw [Prog.wp_bind]
    refine Prog.wp_mono env wp_postAdjustment fun r w' hr => ?_
    cases r with
    | error e => exact fun resolved h => by cases h
    | ok id =>
      refine Prog.wp_mono env (wp_ledger_unchanged ?_ w') fun r' w'' hl resolved _ => ?_
      · cases quebra.accountId <;> simp [Call.touchesLedger]
      · rw [hl]
        exact hr id rfl

end Flow

section Movement

variable (runtime : Runtime) (input : ReconciliationInput) (b : BreakDraft)

def toItemRow (item : NormalizedItem) : ReconciliationItemRow :=
  ⟨item.id, item.externalId, item.direction, item.amountCents⟩

/-- The row a break of the run on an account is stored in. -/
def toBreakRow (id connectionId : String) (status : BreakStatus) : ReconciliationBreakRecord :=
  { id, connectionId, status
    accountId := some input.accountId
    type := b.type
    severity := b.severity
    dedupeKey := b.dedupeKey
    effectiveDate := b.effectiveDate
    endToEndId := b.endToEndId
    amountCents := b.amountCents
    deltaCents := b.deltaCents
    providerItemId := b.providerItemId
    localItemId := b.localItemId
    ledgerItemId := b.ledgerItemId }

def itemOf (items : List NormalizedItem) (id : Option String) : Option NormalizedItem :=
  id.bind (indexar items).get

/-- The provider's entry for the transaction of a break: its own, or the one
its local item was matched with. -/
def providerItemOf (links : List MatchLink) : Option NormalizedItem :=
  match b.providerItemId with
  | some id => (indexar input.provider).get id
  | none =>
    b.localItemId.bind fun id =>
      (links.find? fun link => decide (link.localItemId = some id)).bind fun link =>
        itemOf input.provider link.providerItemId

/-- The provider's signed movement, zero when it has no such entry. -/
def providerMovement (links : List MatchLink) : Int := (providerItemOf input b links).elim 0 signed

def ledgerTransactionOf : Option String :=
  match itemOf input.localItems b.localItemId with
  | some c => present c.ledgerTransactionId
  | none => (itemOf input.ledger b.ledgerItemId).map ledgerKey

/-- The signed movement of the ledger items of the break's transaction. -/
def listedMovement : Int :=
  (ledgerTransactionOf input b).elim 0 fun id =>
    (((indexar input.ledger).values.filter fun item => decide (ledgerKey item = id)).map signed).sum

/-- When the adjustment of a break closes the difference it was raised for, by
the items the break is about. -/
def Converges (links : List MatchLink) : Prop :=
  match itemOf input.provider b.providerItemId, itemOf input.localItems b.localItemId,
    itemOf input.ledger b.ledgerItemId with
  | some p, some c, _ =>
    listedMovement input b =
      if p.direction = .CREDIT then c.amountCents else c.amountCents - 2 * p.amountCents
  | some _, none, _ => True
  | none, some c, some l =>
    listedMovement input b = providerMovement input b links + c.amountCents - l.amountCents
  | none, some c, none => listedMovement input b = signed c
  | none, none, some l => listedMovement input b = -signed l
  | none, none, none => False

variable {runtime input b}

theorem itemOf_indexed {items : List NormalizedItem} {item : NormalizedItem} (h : Indexed items item) :
    itemOf items (some item.id) = some item := h

@[simp] theorem itemOf_none (items : List NormalizedItem) : itemOf items none = none := rfl

theorem signedItem_row (item : NormalizedItem) (undo : Bool) :
    signedItem (toItemRow item) undo = if undo then -signed item else signed item := by
  unfold signedItem signed toItemRow
  cases undo <;> cases item.direction <;> simp

theorem determines_delta {w : World} {quebra : ReconciliationBreakRecord} {delta d : Int}
    (h : Determines w quebra delta) (hd : quebra.deltaCents = some d) (hne : d ≠ 0) : delta = d := by
  obtain h | ⟨h, _⟩ := h <;> rw [hd, Option.filter_some, decide_eq_true hne] at h <;> simp_all

theorem determines_item {w : World} {quebra : ReconciliationBreakRecord} {delta : Int}
    (h : Determines w quebra delta) (hd : quebra.deltaCents = none) :
    ∃ itemId undo item, originItem quebra = some (itemId, undo) ∧ w.items.get itemId = some item ∧
      delta = signedItem item undo := by
  obtain h | ⟨_, h⟩ := h
  · rw [hd] at h
    cases h
  · exact h

/-- The items of the run are stored as they were compared. -/
def ItemsStored (w : World) (input : ReconciliationInput) : Prop :=
  ∀ item ∈ input.provider ++ input.localItems ++ input.ledger, w.items.get item.id = some (toItemRow item)

theorem ItemsStored.row {w : World} (h : ItemsStored w input) {items : List NormalizedItem}
    (hsub : items ⊆ input.provider ++ input.localItems ++ input.ledger) {item : NormalizedItem}
    (hi : Indexed items item) : w.items.get item.id = some (toItemRow item) :=
  h item (hsub (indexar_get hi).1)

section Cases

variable {w : World} {links : List MatchLink} {id connectionId : String} {status : BreakStatus}
  {delta : Int}

theorem amountBreak_converges {p c : NormalizedItem} (hp : Indexed input.provider p)
    (hc : Indexed input.localItems c) (hne : p.amountCents ≠ c.amountCents)
    (hd : Determines w (toBreakRow input (amountBreak input.policy p c) id connectionId status) delta) :
    listedMovement input (amountBreak input.policy p c) + delta =
        providerMovement input (amountBreak input.policy p c) links ↔
      Converges input (amountBreak input.policy p c) links := by
  have hdelta : delta = p.amountCents - c.amountCents :=
    determines_delta hd rfl (by omega)
  have hprovider : providerMovement input (amountBreak input.policy p c) links = signed p := by
    have hitem : providerItemOf input (amountBreak input.policy p c) links = some p := hp
    rw [providerMovement, hitem, Option.elim_some]
  have hconverges : Converges input (amountBreak input.policy p c) links ↔
      listedMovement input (amountBreak input.policy p c) =
        if p.direction = .CREDIT then c.amountCents else c.amountCents - 2 * p.amountCents := by
    unfold Converges
    simp only [amountBreak, itemOf_indexed hp, itemOf_indexed hc]
  rw [hconverges, hprovider, hdelta, signed]
  split <;> omega

theorem missingLocal_converges (hitems : ItemsStored w input) {p : NormalizedItem} {ambiguo : Bool}
    (hp : Indexed input.provider p)
    (hd : Determines w (toBreakRow input (missingLocalBreak p ambiguo) id connectionId status) delta) :
    listedMovement input (missingLocalBreak p ambiguo) + delta =
        providerMovement input (missingLocalBreak p ambiguo) links ↔
      Converges input (missingLocalBreak p ambiguo) links := by
  have hprovider : providerMovement input (missingLocalBreak p ambiguo) links = signed p := by
    have hitem : providerItemOf input (missingLocalBreak p ambiguo) links = some p := hp
    rw [providerMovement, hitem, Option.elim_some]
  have hlisted : listedMovement input (missingLocalBreak p ambiguo) = 0 := rfl
  have hconverges : Converges input (missingLocalBreak p ambiguo) links := by
    unfold Converges
    simp only [missingLocalBreak, itemOf_indexed hp, itemOf_none]
  obtain ⟨itemId, undo, item, horigin, hitem, rfl⟩ := determines_item hd rfl
  simp only [originItem, toBreakRow, missingLocalBreak] at horigin
  have hrow := hitems.row (by grind) hp
  have heq : signedItem item undo = signed p := by
    cases ht : orphanProviderBreakType p <;> simp only [ht] at horigin <;> simp_all [signedItem_row]
  rw [hlisted, hprovider, heq, Int.zero_add]
  exact iff_of_true rfl hconverges

theorem missingProvider_converges (hitems : ItemsStored w input) {c : NormalizedItem}
    (hc : Indexed input.localItems c) (hfree : ∀ m ∈ links, m.localItemId ≠ some c.id)
    (hd : Determines w (toBreakRow input (missingProviderBreak input.now c) id connectionId status) delta) :
    listedMovement input (missingProviderBreak input.now c) + delta =
        providerMovement input (missingProviderBreak input.now c) links ↔
      Converges input (missingProviderBreak input.now c) links := by
  have hprovider : providerMovement input (missingProviderBreak input.now c) links = 0 := by
    have hnone : links.find? (fun link => decide (link.localItemId = some c.id)) = none :=
      List.find?_eq_none.mpr fun m hm => by simpa using hfree m hm
    simp [providerMovement, providerItemOf, missingProviderBreak, hnone]
  have hconverges : Converges input (missingProviderBreak input.now c) links ↔
      listedMovement input (missingProviderBreak input.now c) = signed c := by
    unfold Converges
    simp only [missingProviderBreak, itemOf_indexed hc, itemOf_none]
  obtain ⟨itemId, undo, item, horigin, hitem, rfl⟩ := determines_item hd rfl
  simp only [originItem, toBreakRow, missingProviderBreak, Option.map_some, Option.some.injEq,
    Prod.mk.injEq] at horigin
  have hrow := hitems.row (by grind) hc
  obtain ⟨rfl, rfl⟩ := horigin
  rw [hrow, Option.some.injEq] at hitem
  rw [← hitem, signedItem_row, if_pos rfl, hconverges, hprovider]
  omega

theorem ledgerAmount_converges {c l : NormalizedItem} (hc : Indexed input.localItems c)
    (hl : Indexed input.ledger l) (hne : l.amountCents ≠ c.amountCents)
    (hd : Determines w (toBreakRow input (ledgerAmountBreak c l) id connectionId status) delta) :
    listedMovement input (ledgerAmountBreak c l) + delta =
        providerMovement input (ledgerAmountBreak c l) links ↔
      Converges input (ledgerAmountBreak c l) links := by
  have hdelta : delta = l.amountCents - c.amountCents :=
    determines_delta hd rfl (by omega)
  have hconverges : Converges input (ledgerAmountBreak c l) links ↔
      listedMovement input (ledgerAmountBreak c l) =
        providerMovement input (ledgerAmountBreak c l) links + c.amountCents - l.amountCents := by
    unfold Converges
    simp only [ledgerAmountBreak, itemOf_indexed hc, itemOf_indexed hl, itemOf_none]
  rw [hconverges, hdelta]
  omega

theorem orphan_converges (hitems : ItemsStored w input) {l : NormalizedItem}
    (hl : Indexed input.ledger l)
    (hd : Determines w (toBreakRow input (orphanBreak l) id connectionId status) delta) :
    listedMovement input (orphanBreak l) + delta = providerMovement input (orphanBreak l) links ↔
      Converges input (orphanBreak l) links := by
  have hprovider : providerMovement input (orphanBreak l) links = 0 := rfl
  have hconverges : Converges input (orphanBreak l) links ↔
      listedMovement input (orphanBreak l) = -signed l := by
    unfold Converges
    simp only [orphanBreak, itemOf_indexed hl, itemOf_none]
  obtain ⟨itemId, undo, item, horigin, hitem, rfl⟩ := determines_item hd rfl
  simp only [originItem, toBreakRow, orphanBreak, Option.orElse_none, Option.map_some,
    Option.some.injEq, Prod.mk.injEq] at horigin
  have hrow := hitems.row (by grind) hl
  obtain ⟨rfl, rfl⟩ := horigin
  rw [hrow, Option.some.injEq] at hitem
  rw [← hitem, signedItem_row, hconverges, hprovider]
  simp only [Bool.false_eq_true, if_false]
  omega

theorem balance_converges {abertura movimento fechamento : Int}
    (hb : b = balanceBreak runtime input abertura movimento fechamento)
    (hne : fechamento - (abertura + movimento) ≠ 0)
    (hd : Determines w (toBreakRow input b id connectionId status) delta) :
    listedMovement input b + delta = providerMovement input b links ↔ Converges input b links := by
  subst hb
  have hdelta : delta = fechamento - (abertura + movimento) := determines_delta hd rfl hne
  have hlisted : listedMovement input (balanceBreak runtime input abertura movimento fechamento) = 0 := rfl
  have hprovider :
      providerMovement input (balanceBreak runtime input abertura movimento fechamento) links = 0 := rfl
  rw [hlisted, hprovider, hdelta, Int.zero_add]
  exact iff_of_false hne fun h => h

/-- The delta a break determines closes its difference when, and only when, the
break converges. -/
theorem determined_converges (hitems : ItemsStored w input) (horigin : Origin runtime input links b)
    (hd : Determines w (toBreakRow input b id connectionId status) delta) :
    listedMovement input b + delta = providerMovement input b links ↔ Converges input b links := by
  have hrefused (ho : originItem (toBreakRow input b id connectionId status) = none)
      (hn : b.deltaCents = none) : False := by
    obtain ⟨_, _, _, h, _⟩ := determines_item hd hn
    rw [ho] at h
    cases h
  cases horigin with
  | early h =>
    cases h with
    | amount hp hc hne => exact amountBreak_converges hp hc hne hd
    | plain hdelta hlocal hprovider hledger =>
      refine (hrefused ?_ hdelta).elim
      unfold originItem
      split <;> simp_all [toBreakRow]
    | missingLocal hp ambiguo => exact missingLocal_converges hitems hp hd
  | missingProvider hc hfree => exact missingProvider_converges hitems hc hfree hd
  | missingLedger c => exact (hrefused rfl rfl).elim
  | ledgerAmount hc hl hne => exact ledgerAmount_converges hc hl hne hd
  | orphan hl => exact orphan_converges hitems hl hd
  | balance hne => exact balance_converges rfl hne hd

end Cases

/-- When a successful resolution leaves the ledger and the provider in
agreement: a key that was used posts nothing any more. -/
def AdjustmentConverges (w : World) (input : ReconciliationInput) (links : List MatchLink)
    (b : BreakDraft) (id availableId : String) : Prop :=
  if (w.ledger.findByIdempotencyKey (adjustKey id)).isSome then
    listedMovement input b + movedUnder w.ledger (adjustKey id) availableId =
      providerMovement input b links
  else Converges input b links

/-- After an approved adjustment the ledger's movement for the transaction of
the break is the provider's exactly when the break converges. -/
theorem adjustment_agrees_iff {w : World} {id connectionId availableId : String} {status : BreakStatus}
    (hb : b ∈ (reconcile runtime input).breaks)
    (hrow : w.breaks.get id = some (toBreakRow input b id connectionId status))
    (hitems : ItemsStored w input)
    (havailable : (w.accounts.get input.accountId).bind (·.ledgerAvailableAccountId) = some availableId)
    (hexternal : w.ledger.accountIdByCode externalWorldCode ≠ some availableId) :
    (resolveBreak id .CREATE_LEDGER_ADJUSTMENT).wp env (fun r w' => ∀ resolved, r = .ok resolved →
      (listedMovement input b + movedUnder w'.ledger (adjustKey id) availableId =
          providerMovement input b (reconcile runtime input).matched ↔
        AdjustmentConverges w input (reconcile runtime input).matched b id availableId)) w := by
  refine Prog.wp_mono env (wp_resolveBreak hrow) fun r w' hr resolved hok => ?_
  obtain ⟨delta, accountId, availableId', hadjusted⟩ := hr resolved hok
  obtain ⟨mint, posted, hposted⟩ := hadjusted.posted
  have haccount : input.accountId = accountId := Option.some.inj hadjusted.account
  have hsame : availableId = availableId' := by
    rw [haccount, hadjusted.available, Option.some.injEq] at havailable
    exact havailable.symm
  subst hsame
  have hmoved := adjust_moved hexternal hposted
  have hid : (toBreakRow input b id connectionId status).id = id := rfl
  have hconverges := determined_converges hitems (reconcile_origin runtime hb) hadjusted.determined
  rw [hid] at hmoved
  unfold AdjustmentConverges
  by_cases hused : (w.ledger.findByIdempotencyKey (adjustKey id)).isSome
  · rw [hmoved, if_pos hused, if_pos hused]
  · have hdelta : (if decide (0 < delta) then (if delta < 0 then -delta else delta)
        else -(if delta < 0 then -delta else delta)) = delta := by
      by_cases hpos : 0 < delta
      · rw [if_pos (by simpa using hpos), if_neg (by omega)]
      · have hneg : delta < 0 := by have := hadjusted.nonzero; omega
        rw [if_neg (by simpa using hpos), if_pos hneg, Int.neg_neg]
    rw [hmoved, if_neg hused, if_neg hused, hdelta]
    exact hconverges

end Movement

section Sample

open BaasConnector.Pix.HoldResolution

def sampleItem (id : String) (side : ReconciliationSide) (direction : TransactionDirection)
    (amountCents : Int) : NormalizedItem :=
  { id, side, accountId := "acc_1", externalId := none, endToEndId := some "E1", postedAt := 0
    effectiveDate := "2026-01-01", direction, amountCents, type := "PIX", status := none
    counterpartyTaxIdIndex := none, providerTransactionId := none, ledgerTransactionId := some "ltx_9"
    matchKeyStrong := some "e2e:E1", matchKeyFuzzy := id }

def samplePolicy : ReconciliationPolicy :=
  ⟨30, 0, 0, 1, 1, 100000, 50, fun _ _ => 0⟩

def sampleRuntime : Runtime := ⟨fun _ _ => 0, fun _ => "2026-01-01"⟩

/-- A movement of 100.00 at the provider that we have taken for 60.00. -/
def mismatchInput (direction : TransactionDirection) : ReconciliationInput :=
  { accountId := "acc_1", windowEnd := 0, now := 0
    provider := [sampleItem "itm_p" .PROVIDER direction 10000]
    localItems := [sampleItem "itm_c" .LOCAL direction 6000]
    ledger := [sampleItem "itm_l" .LEDGER direction 6000]
    balances := ⟨none, none, none⟩, policy := samplePolicy }

def mismatchBreak (direction : TransactionDirection) : BreakDraft :=
  amountBreak samplePolicy (sampleItem "itm_p" .PROVIDER direction 10000)
    (sampleItem "itm_c" .LOCAL direction 6000)

def mismatchWorld (direction : TransactionDirection) : World :=
  { sampleWorld fundedLedger with
    breaks := Rows.empty.put (toBreakRow (mismatchInput direction) (mismatchBreak direction)
      "brk_1" "con_1" .OPEN)
    items := ((Rows.empty.put (toItemRow (sampleItem "itm_p" .PROVIDER direction 10000))).put
      (toItemRow (sampleItem "itm_c" .LOCAL direction 6000))).put
      (toItemRow (sampleItem "itm_l" .LEDGER direction 6000)) }

def adjustScript : List Choice := [{}, {}, { mint := sampleMint "ltx_1" }, {}, {}, {}, {}, {}]

theorem mismatch_reported (direction : TransactionDirection) :
    mismatchBreak direction ∈ (reconcile sampleRuntime (mismatchInput direction)).breaks := by
  cases direction <;> decide

theorem mismatch_stored (direction : TransactionDirection) :
    ItemsStored (mismatchWorld direction) (mismatchInput direction) := by
  intro item hitem
  simp only [mismatchInput, List.cons_append, List.nil_append, List.mem_cons, List.not_mem_nil,
    or_false] at hitem
  obtain rfl | rfl | rfl := hitem <;> cases direction <;> rfl

theorem mismatch_resolved (direction : TransactionDirection) :
    ∃ r w', (resolveBreak "brk_1" .CREATE_LEDGER_ADJUSTMENT).Runs env (mismatchWorld direction) (.ok r) w' ∧
      movedUnder w'.ledger (adjustKey "brk_1") "lac_1" = 4000 := by
  have hplay : ((resolveBreak "brk_1" .CREATE_LEDGER_ADJUSTMENT).play answer adjustScript
      (mismatchWorld direction)).map (fun run => (run.1.toOption.isSome,
        movedUnder run.2.ledger (adjustKey "brk_1") "lac_1")) = some (true, 4000) := by
    cases direction <;> decide
  obtain ⟨⟨r, w'⟩, hruns, hmoved⟩ := Option.map_eq_some_iff.mp hplay
  rw [Prod.mk.injEq] at hmoved
  cases r with
  | error e => exact absurd hmoved.1 (by simp [Except.toOption])
  | ok r => exact ⟨r, w', Prog.runs_of_play (fun c q w r w' h => ⟨c, h⟩) hruns, hmoved.2⟩

theorem adjustment_agrees_iff_credit :
    ∃ w' : World, movedUnder w'.ledger (adjustKey "brk_1") "lac_1" = 4000 ∧
      listedMovement (mismatchInput .CREDIT) (mismatchBreak .CREDIT) +
        movedUnder w'.ledger (adjustKey "brk_1") "lac_1" = 10000 := by
  obtain ⟨r, w', hruns, hmoved⟩ := mismatch_resolved .CREDIT
  have hiff := hruns.of_wp (adjustment_agrees_iff
    (mismatch_reported .CREDIT) (show _ = some _ from rfl) (mismatch_stored .CREDIT)
    (show _ = some "lac_1" from rfl) (by decide)) r rfl
  have hlisted : listedMovement (mismatchInput .CREDIT) (mismatchBreak .CREDIT) = 6000 := by decide
  exact ⟨w', hmoved, hiff.mpr hlisted⟩

/-- The adjustment of a debit that the provider has larger moves the ledger
away from the provider. -/
theorem debit_adjustment_diverges :
    ¬ ∀ (runtime : Runtime) (input : ReconciliationInput) (b : BreakDraft) (w : World)
      (id connectionId availableId : String) (status : BreakStatus),
      b ∈ (reconcile runtime input).breaks →
      w.breaks.get id = some (toBreakRow input b id connectionId status) → ItemsStored w input →
      (w.accounts.get input.accountId).bind (·.ledgerAvailableAccountId) = some availableId →
      w.ledger.accountIdByCode externalWorldCode ≠ some availableId →
      (resolveBreak id .CREATE_LEDGER_ADJUSTMENT).wp env (fun r w' => ∀ resolved, r = .ok resolved →
        listedMovement input b + movedUnder w'.ledger (adjustKey id) availableId =
          providerMovement input b (reconcile runtime input).matched) w := by
  intro h
  obtain ⟨r, w', hruns, hmoved⟩ := mismatch_resolved .DEBIT
  have hagree := hruns.of_wp (h sampleRuntime (mismatchInput .DEBIT) (mismatchBreak .DEBIT)
    (mismatchWorld .DEBIT) "brk_1" "con_1" "lac_1" .OPEN (mismatch_reported .DEBIT) rfl
    (mismatch_stored .DEBIT) rfl (by decide)) r rfl
  rw [hmoved] at hagree
  revert hagree
  decide

end Sample

end BaasConnector.Reconciliation.Adjustment
