import BaasConnector.Ledger.BalanceChange
import BaasConnector.Reconciliation.Adjustment
import Mathlib.Logic.Relation

namespace BaasConnector.Reconciliation.Readjustment

open BaasConnector.Lib.Effects BaasConnector.Lib.Keyed BaasConnector.Taxonomy.Errors
open BaasConnector.Ledger.Types BaasConnector.Ledger.Engine BaasConnector.Ledger.MemoryStore
open BaasConnector.Ledger.Outcomes BaasConnector.Ledger.Shadow BaasConnector.Ledger.Holds
open BaasConnector.Ledger.Placement BaasConnector.Ledger.Adjustments BaasConnector.Ledger.Receipts
open BaasConnector.Ledger.Counters BaasConnector.Ledger.Calls BaasConnector.Ledger.BalanceChange
open BaasConnector.Connector.Records BaasConnector.Connector.Calls BaasConnector.Connector.Database
open BaasConnector.Connector.Replies BaasConnector.Reconciliation.Items
open BaasConnector.Reconciliation.BreakResolution BaasConnector.Reconciliation.Adjustment

section Keys

variable {s s' : LedgerStore} {c : EngineCall} {r : Except LedgerThrown PostTransactionResult}
  {key : String}

/-- A transaction stands under the idempotency key. -/
def Used (key : String) (s : LedgerStore) : Prop := (s.findByIdempotencyKey key).isSome

theorem used_iff : Used key s ↔
    ∃ id t, s.byIdempotencyKey.get key = some id ∧ s.transactions.get id = some t := by
  unfold Used LedgerStore.findByIdempotencyKey
  cases hid : s.byIdempotencyKey.get key with
  | none => simp
  | some id => cases ht : s.transactions.get id <;> simp [ht]

theorem used_persist {t : LedgerTransaction} (es : List LedgerEntry) (accounts : List LedgerAccount)
    (hne : key ≠ t.idempotencyKey) (h : Used key s) : Used key (s.persist t es accounts) := by
  obtain ⟨id, u, hid, hu⟩ := used_iff.mp h
  refine used_iff.mpr ⟨id, if id = t.id then t else u, (persist_keys es accounts hne).trans hid, ?_⟩
  rw [persist_get, hu]
  split <;> rfl

theorem used_ne {k : String} (h : Used key s) (hk : s.findByIdempotencyKey k = none) : key ≠ k := by
  rintro rfl
  unfold Used at h
  rw [hk] at h
  cases h

theorem used_self {t : LedgerTransaction} {es : List LedgerEntry} (accounts : List LedgerAccount)
    (hne : es ≠ []) : Used t.idempotencyKey (s.persist t es accounts) := by
  refine used_iff.mpr ⟨t.id, t, ?_, ?_⟩
  · rw [persist_byKey accounts hne, if_pos rfl]
  · rw [persist_get, if_pos rfl]

/-- No call of the engine frees a key. -/
theorem used_call (ho : Outcome s c r s') (h : Used key s) : Used key s' := by
  cases ho with
  | failed => exact h
  | replayed => exact h
  | posted mint input debits es after hkey =>
    exact used_persist (t := postedTransaction mint input debits) es after.values (used_ne h hkey) h
  | resolved mint id options commit pending es after hkey hget =>
    have hfirst := used_persist (t := resolution mint id options commit pending) es after.values
      (used_ne h hkey) h
    obtain ⟨k, u, hk, hu⟩ := used_iff.mp hfirst
    refine used_iff.mpr ⟨k, if k = pending.id then resolvedPending mint commit pending else u, hk, ?_⟩
    unfold resolved
    rw [persist_get, hu]
    change (if k = pending.id then _ else _) = _
    split <;> rfl

theorem used_run (c : EngineCall) (h : Used key s) : Used key (c.run s).2 :=
  used_call (run_outcome s c) h

theorem used_resolve (mint : Mint) (commit : Bool) (hold other : String) (h : Used key s) :
    Used key ((resolveCommand commit hold other).perform mint s).2 := by
  rw [perform_resolve, run_snd, ← run_resolve]
  exact used_run _ h

theorem used_perform (mint : Mint) (command : LedgerCommand) (h : Used key s) :
    Used key (command.perform mint s).2 := by
  cases command with
  | settleOut hold other => exact used_resolve mint true hold other h
  | voidOut hold other => exact used_resolve mint false hold other h
  | _ =>
    unfold LedgerCommand.perform withExternal
    cases s.accountIdByCode externalWorldCode with
    | none => exact h
    | some externalId =>
      dsimp only
      rw [run_snd, ← run_post]
      exact used_run _ h

theorem run_ok {p : StoreProg PostTransactionResult} {posted : PostTransactionResult}
    (h : run p s = (.ok posted, s')) : runExclusive p s = (.ok posted, s') := by
  unfold run at h
  cases he : runExclusive p s with
  | mk r t =>
    rw [he] at h
    cases r with
    | error e => cases (Prod.mk.inj h).1
    | ok a => simpa using h

def adjustInput (availableId externalId : String) (amount : Int) (credit : Bool) (key : String)
    (externalRef : Option String) (now : Int) : PostTransactionInput :=
  transferInput .RECONCILIATION_ADJUSTMENT .POSTED (if credit then externalId else availableId)
    (if credit then availableId else externalId) amount key externalRef now

variable {mint : Mint} {availableId : String} {amount : Int} {credit : Bool} {externalRef : Option String}
  {posted : PostTransactionResult}

theorem adjust_outcome
    (h : (LedgerCommand.adjust availableId amount credit key externalRef).perform mint s = (.ok posted, s')) :
    ∃ externalId, s.accountIdByCode externalWorldCode = some externalId ∧
      Outcome s (.post mint (adjustInput availableId externalId amount credit key externalRef mint.now))
        (.ok posted) s' := by
  unfold LedgerCommand.perform withExternal at h
  cases hx : s.accountIdByCode externalWorldCode with
  | none => simp [hx] at h
  | some externalId =>
    simp only [hx] at h
    have ho := run_outcome s
      (.post mint (adjustInput availableId externalId amount credit key externalRef mint.now))
    have hrun : (EngineCall.post mint (adjustInput availableId externalId amount credit key externalRef
        mint.now)).run s = (.ok posted, s') := (run_post s mint _).trans (run_ok h)
    rw [hrun] at ho
    exact ⟨externalId, rfl, ho⟩

theorem adjust_used
    (h : (LedgerCommand.adjust availableId amount credit key externalRef).perform mint s = (.ok posted, s')) :
    Used key s' := by
  obtain ⟨externalId, -, ho⟩ := adjust_outcome h
  cases ho with
  | replayed _ existing hkey => exact Option.isSome_iff_exists.mpr ⟨existing, hkey⟩
  | posted _ _ debits es after _ hbalanced hbuilt =>
    exact used_self after.values (posted_entries_ne hbalanced hbuilt)

theorem adjust_replayed (hused : Used key s)
    (h : (LedgerCommand.adjust availableId amount credit key externalRef).perform mint s = (.ok posted, s')) :
    s' = s := by
  obtain ⟨externalId, -, ho⟩ := adjust_outcome h
  cases ho with
  | replayed => rfl
  | posted _ _ _ _ _ hkey => exact absurd rfl (used_ne hused hkey)

/-- Under a free key an adjustment moves its amount into or out of the account. -/
theorem adjust_changes (hexternal : s.accountIdByCode externalWorldCode ≠ some availableId)
    (hcredit : ∀ a, s.accounts.get availableId = some a → a.normalBalance = .CREDIT) (hfree : ¬ Used key s)
    (h : (LedgerCommand.adjust availableId amount credit key externalRef).perform mint s = (.ok posted, s')) :
    postedBalance s' availableId - postedBalance s availableId = if credit then amount else -amount := by
  obtain ⟨externalId, hx, ho⟩ := adjust_outcome h
  have hne : externalId ≠ availableId := fun he => hexternal (he ▸ hx)
  cases ho with
  | replayed _ existing hkey => exact absurd (Option.isSome_iff_exists.mpr ⟨existing, hkey⟩) hfree
  | posted _ _ debits es after _ _ hbuilt =>
    have hbalance := postedBalance_write .POSTED
      (postedTransaction mint (adjustInput availableId externalId amount credit key externalRef mint.now)
        debits)
      es (deltas_of_buildEntries _ _ _ _ _ _ _ _ _ hbuilt).1 hcredit fun direction => by
        rw [changeOn_deltaFor]
        simp [adjustInput, transferInput]
    rw [hbalance, if_pos rfl]
    cases credit <;> simp [adjustInput, transferInput, movedOn, hne]

end Keys

section Breaks

variable {w w' w₀ w₁ w₂ w₃ : World} {breakId : String} {adjusted resolved quebra : ReconciliationBreakRecord}

/-- One call of any program, whatever it is answered. -/
def Step (w w' : World) : Prop := ∃ q r, env w q r w'

/-- What calls of any programs have led to: postings, reports of breaks,
closings, reopenings and other resolutions among them. -/
def Later : World → World → Prop := Relation.ReflTransGen Step

theorem step_used {key : String} (hstep : Step w w') (h : Used key w.ledger) : Used key w'.ledger := by
  obtain ⟨q, r, henv⟩ := hstep
  by_cases hq : Call.touchesLedger q = false
  · rw [env_ledger hq henv]
    exact h
  cases q with
  | ledger command =>
    obtain ⟨-, rfl⟩ | ⟨mint, -, -, rfl⟩ := env_ledger_command.mp henv
    · exact h
    · exact used_perform mint command h
  | ledgerOpenAccounts accountId =>
    obtain ⟨-, -, rfl⟩ | ⟨c, -, hc⟩ := env_iff.mp henv
    · exact h
    · unfold respond at hc
      simp only [World.openLedgerAccounts, reply] at hc
      have hsame : w'.ledger.byIdempotencyKey = w.ledger.byIdempotencyKey ∧
          w'.ledger.transactions = w.ledger.transactions := by
        grind [ensureAccount, LedgerStore.createAccount]
      rw [used_iff, hsame.1, hsame.2, ← used_iff]
      exact h
  | _ => simp [Call.touchesLedger] at hq

theorem Later.used {key : String} (hlater : Later w w') (h : Used key w.ledger) : Used key w'.ledger := by
  induction hlater with
  | refl => exact h
  | tail _ hstep ih => exact step_used hstep ih

theorem Later.of_runs {α : Type} {p : Flow α} {r : Except Thrown α} (h : p.Runs env w r w') :
    Later w w' := by
  induction p generalizing w with
  | pure a =>
    rw [h.2]
    exact .refl
  | throw e =>
    rw [h.2]
    exact .refl
  | call q k ih =>
    obtain ⟨r', v, hstep, hrest⟩ := h
    exact .head ⟨q, r', hstep⟩ (ih r' hrest)

theorem wp_missing (hrow : w.breaks.get breakId = none) (action : ResolutionAction) :
    (resolveBreak breakId action).wp env (fun r _ => ∀ resolved, r ≠ .ok resolved) w := by
  unfold resolveBreak
  refine wp_read (fun _ => rfl) ?_ fun _ resolved h => by cases h
  rw [hrow]
  exact fun resolved h => by cases h

/-- An adjustment that is reported done has found the break, and its command is
on the ledger under the key of the break. -/
theorem resolved_adjusted (h : (resolveBreak breakId .CREATE_LEDGER_ADJUSTMENT).Runs env
      w (.ok resolved) w') :
    ∃ quebra delta accountId availableId, w.breaks.get breakId = some quebra ∧ quebra.id = breakId ∧
      Adjusted w quebra w'.ledger delta accountId availableId := by
  cases hrow : w.breaks.get breakId with
  | none => exact absurd rfl (h.of_wp (wp_missing hrow _) resolved)
  | some quebra =>
    obtain ⟨delta, accountId, availableId, hadjusted⟩ := h.of_wp (wp_resolveBreak hrow) resolved rfl
    exact ⟨quebra, delta, accountId, availableId, rfl, Rows.key_of_get hrow, hadjusted⟩

/-- A resolution changes the balance of the account by the delta of the break
exactly when nothing stands under the key of the break. -/
theorem adjusted_changes_iff {ledger : LedgerStore} {delta : Int} {accountId availableId : String}
    (hexternal : w.ledger.accountIdByCode externalWorldCode ≠ some availableId)
    (hcredit : ∀ a, w.ledger.accounts.get availableId = some a → a.normalBalance = .CREDIT)
    (h : Adjusted w quebra ledger delta accountId availableId) :
    postedBalance ledger availableId - postedBalance w.ledger availableId = delta ↔
      ¬ Used (adjustKey quebra.id) w.ledger := by
  obtain ⟨mint, posted, hposted⟩ := h.posted
  have hnonzero := h.nonzero
  constructor
  · intro hchange hused
    rw [adjust_replayed hused hposted] at hchange
    omega
  · intro hfree
    rw [adjust_changes hexternal hcredit hfree hposted]
    by_cases hpos : 0 < delta
    · rw [if_pos (by simpa using hpos), if_neg (by omega)]
    · rw [if_neg (by simpa using hpos), if_pos (by omega), Int.neg_neg]

/-- A break that has been adjusted once is never adjusted again: whatever delta
it is reported with later, a resolution that answers with success leaves the
balances of the ledger as they are. -/
theorem readjustment_changes_nothing
    (hadjusted : (resolveBreak breakId .CREATE_LEDGER_ADJUSTMENT).Runs env w₀ (.ok adjusted) w₁)
    (hlater : Later w₁ w₂)
    (hresolved : (resolveBreak breakId .CREATE_LEDGER_ADJUSTMENT).Runs env w₂ (.ok resolved) w₃) :
    ∃ quebra delta accountId availableId, w₂.breaks.get breakId = some quebra ∧
      Determines w₂ quebra delta ∧ quebra.accountId = some accountId ∧
      (w₂.accounts.get accountId).bind (·.ledgerAvailableAccountId) = some availableId ∧
      postedBalance w₃.ledger availableId - postedBalance w₂.ledger availableId = 0 ∧ delta ≠ 0 := by
  obtain ⟨before, _, _, _, -, hbefore, hfirst⟩ := resolved_adjusted hadjusted
  obtain ⟨_, _, hfirstPosted⟩ := hfirst.posted
  have hused := hlater.used (adjust_used hfirstPosted)
  obtain ⟨quebra, delta, accountId, availableId, hrow, hid, hsecond⟩ := resolved_adjusted hresolved
  obtain ⟨_, _, hsecondPosted⟩ := hsecond.posted
  rw [hbefore, ← hid] at hused
  have hsame := adjust_replayed hused hsecondPosted
  refine ⟨quebra, delta, accountId, availableId, hrow, hsecond.determined, hsecond.account,
    hsecond.available, ?_, hsecond.nonzero⟩
  rw [hsame, Int.sub_self]

end Breaks

section Sample

open BaasConnector.Pix.HoldResolution

/-- The world that a played program leaves, itself if the script does not fit. -/
def after {α : Type} (p : Flow α) (script : List Choice) (w : World) : World :=
  ((p.play answer script w).map Prod.snd).getD w

def adjustedWorld : World :=
  after (resolveBreak "brk_1" .CREATE_LEDGER_ADJUSTMENT) adjustScript (mismatchWorld .CREDIT)

/-- The run reports the break again, with 10.00 of difference. -/
def reportAgain : Flow String :=
  ask (.breakUpsert { toBreakRow (mismatchInput .CREDIT) (mismatchBreak .CREDIT) "brk_2" "con_1" .OPEN with
    deltaCents := some 1000 })

def reopenedWorld : World := after reportAgain [{}] adjustedWorld

def secondScript : List Choice := [{}, {}, { mint := sampleMint "ltx_2" }, {}, {}, {}, {}, {}]

def readjustedWorld : World :=
  after (resolveBreak "brk_1" .CREATE_LEDGER_ADJUSTMENT) secondScript reopenedWorld

theorem runs_after {α : Type} (p : Flow α) (script : List Choice) (w : World)
    (h : (p.play answer script w).any (·.1.toOption.isSome) = true) :
    ∃ a, p.Runs env w (.ok a) (after p script w) := by
  cases hplay : p.play answer script w with
  | none =>
    rw [hplay] at h
    cases h
  | some run =>
    obtain ⟨r, w'⟩ := run
    rw [hplay] at h
    have hafter : after p script w = w' := by
      rw [after, hplay]
      rfl
    cases r with
    | error e => cases h
    | ok a => exact ⟨a, hafter ▸ Prog.runs_of_play (fun c q w r w' h => ⟨c, h⟩) hplay⟩

theorem sample_adjusted : ∃ adjusted, (resolveBreak "brk_1" .CREATE_LEDGER_ADJUSTMENT).Runs env
    (mismatchWorld .CREDIT) (.ok adjusted) adjustedWorld :=
  runs_after _ _ _ (by decide)

theorem sample_reopened : Later adjustedWorld reopenedWorld := by
  obtain ⟨_, hruns⟩ := runs_after reportAgain [{}] adjustedWorld (by decide)
  exact Later.of_runs hruns

theorem sample_readjusted : ∃ resolved, (resolveBreak "brk_1" .CREATE_LEDGER_ADJUSTMENT).Runs env
    reopenedWorld (.ok resolved) readjustedWorld :=
  runs_after _ _ _ (by decide)

theorem readjustment_changes_nothing_sample : ∃ quebra delta accountId availableId,
    reopenedWorld.breaks.get "brk_1" = some quebra ∧ Determines reopenedWorld quebra delta ∧
      quebra.accountId = some accountId ∧
      (reopenedWorld.accounts.get accountId).bind (·.ledgerAvailableAccountId) = some availableId ∧
      postedBalance readjustedWorld.ledger availableId - postedBalance reopenedWorld.ledger availableId = 0 ∧
      delta ≠ 0 := by
  obtain ⟨_, hadjusted⟩ := sample_adjusted
  obtain ⟨_, hresolved⟩ := sample_readjusted
  exact readjustment_changes_nothing hadjusted sample_reopened hresolved

/-- The break is open again with 10.00 to adjust, and the ledger stays without them. -/
theorem reopened_break_not_adjusted :
    ∃ (w₀ w₁ w₂ w₃ : World) (breakId availableId : String)
    (adjusted resolved quebra : ReconciliationBreakRecord),
      (resolveBreak breakId .CREATE_LEDGER_ADJUSTMENT).Runs env w₀ (.ok adjusted) w₁ ∧ Later w₁ w₂ ∧
      w₂.breaks.get breakId = some quebra ∧ quebra.status = .OPEN ∧ Determines w₂ quebra 1000 ∧
      (quebra.accountId.bind w₂.accounts.get).bind (·.ledgerAvailableAccountId) = some availableId ∧
      (resolveBreak breakId .CREATE_LEDGER_ADJUSTMENT).Runs env w₂ (.ok resolved) w₃ ∧
      postedBalance w₃.ledger availableId - postedBalance w₂.ledger availableId ≠ 1000 := by
  obtain ⟨adjusted, hadjusted⟩ := sample_adjusted
  obtain ⟨resolved, hresolved⟩ := sample_readjusted
  have hrow : ∃ quebra, reopenedWorld.breaks.get "brk_1" = some quebra ∧ quebra.status = .OPEN ∧
      quebra.deltaCents = some 1000 ∧ quebra.accountId = some "acc_1" := by decide
  obtain ⟨quebra, hrow, hopen, hdelta, haccount⟩ := hrow
  refine ⟨_, _, _, _, "brk_1", "lac_1", adjusted, resolved, quebra, hadjusted, sample_reopened, hrow, hopen,
    .inl ?_, ?_, hresolved, ?_⟩
  · rw [hdelta]
    rfl
  · rw [haccount]
    decide
  · decide

end Sample

end BaasConnector.Reconciliation.Readjustment
