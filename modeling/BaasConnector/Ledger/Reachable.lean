import BaasConnector.Ledger.Books
import BaasConnector.Ledger.Outcomes

namespace BaasConnector.Ledger.ChartOfAccounts

open BaasConnector.Lib.Keyed BaasConnector.Ledger.Types BaasConnector.Ledger.MemoryStore
open BaasConnector.Ledger.Shadow

inductive LedgerAccountType
  | ASSET | LIABILITY | EQUITY | REVENUE | EXPENSE
deriving DecidableEq, Repr

def normalBalanceFor : LedgerAccountType → NormalBalance
  | .ASSET | .EXPENSE => .DEBIT
  | .LIABILITY | .EQUITY | .REVENUE => .CREDIT

structure AccountTemplate where
  code : String
  type : LedgerAccountType
  allowsNegative : Bool
deriving DecidableEq, Repr

def bacenReserveCode : String := "1000"

def spiInTransitCode : String := "1100"

def suspenseCreditsCode : String := "1900"

def pixOutClearingCode : String := "2200"

def returnsPayableCode : String := "2300"

def suspenseDebitsCode : String := "2900"

def retainedEarningsCode : String := "3000"

def feeRevenueCode : String := "4000"

def operatingExpenseCode : String := "5000"

def template (code : String) (type : LedgerAccountType) : AccountTemplate := ⟨code, type, false⟩

/-- The accounts of the bank itself. Only the rest of the world may be negative. -/
def singletonAccounts : List AccountTemplate :=
  [template bacenReserveCode .ASSET, template spiInTransitCode .ASSET,
    template suspenseCreditsCode .ASSET, template pixOutClearingCode .LIABILITY,
    template returnsPayableCode .LIABILITY, template suspenseDebitsCode .LIABILITY,
    template retainedEarningsCode .EQUITY, template feeRevenueCode .REVENUE,
    template operatingExpenseCode .EXPENSE, ⟨externalWorldCode, .ASSET, true⟩]

def availableTemplate (accountId : String) : AccountTemplate :=
  template (customerAvailableCode accountId) .LIABILITY

def blockedTemplate (accountId : String) : AccountTemplate :=
  template (customerBlockedCode accountId) .LIABILITY

/-- An account of a template, with nothing on it yet. -/
def AccountTemplate.account (t : AccountTemplate) (id : String) : LedgerAccount :=
  { id
    code := t.code
    normalBalance := normalBalanceFor t.type
    allowsNegative := t.allowsNegative
    debitsPosted := 0
    creditsPosted := 0
    debitsPending := 0
    creditsPending := 0
    entryCount := 0
    version := 0 }

/-- Open the account of a template, unless its code is there. -/
def createFrom (s : LedgerStore) (id : String) (t : AccountTemplate) : LedgerStore :=
  match s.accountIdByCode t.code with
  | some _ => s
  | none => s.createAccount (t.account id)

def openCustomerAccounts (s : LedgerStore) (availableId blockedId customerAccountId : String) :
    LedgerStore :=
  createFrom (createFrom s availableId (availableTemplate customerAccountId)) blockedId
    (blockedTemplate customerAccountId)

def createAll (s : LedgerStore) : List (String × AccountTemplate) → LedgerStore
  | [] => s
  | (id, t) :: rest => createAll (createFrom s id t) rest

/-- The store as it is constructed, with the ids its accounts are given. -/
def newStore (newId : Nat → String) : LedgerStore :=
  createAll .empty (((List.range singletonAccounts.length).map newId).zip singletonAccounts)

/-- The account that the shadow ledger opens for a customer is the one of the
chart. -/
theorem ensureAccount_eq_createFrom (s : LedgerStore) (accountId id : String) :
    (ensureAccount s (customerAvailableCode accountId) id).2 =
      createFrom s id (availableTemplate accountId) := by
  unfold ensureAccount createFrom availableTemplate template
  cases s.accountIdByCode (customerAvailableCode accountId) with
  | some existing => rfl
  | none => rfl

variable {s : LedgerStore} {id : String} {t : AccountTemplate}

theorem createFrom_entries (s : LedgerStore) (id : String) (t : AccountTemplate) :
    (createFrom s id t).entries = s.entries ∧ (createFrom s id t).transactions = s.transactions := by
  unfold createFrom
  split
  · exact ⟨rfl, rfl⟩
  · exact ⟨rfl, rfl⟩

theorem createFrom_get_of_ne {k : String} (hk : k ≠ id) :
    (createFrom s id t).accounts.get k = s.accounts.get k := by
  unfold createFrom
  split
  · rfl
  · exact Rows.get_put_ne _ _ hk

theorem createFrom_get_self (h : s.accounts.get id = none) :
    (createFrom s id t).accounts.get id = none ∨
      (createFrom s id t).accounts.get id = some (t.account id) := by
  unfold createFrom
  split
  · exact .inl h
  · exact .inr (Rows.get_put_self s.accounts (t.account id))

end BaasConnector.Ledger.ChartOfAccounts

namespace BaasConnector.Ledger.Reachable

open BaasConnector.Lib.Effects BaasConnector.Lib.Keyed BaasConnector.Ledger.Types
open BaasConnector.Ledger.Engine BaasConnector.Ledger.MemoryStore BaasConnector.Ledger.Outcomes
open BaasConnector.Ledger.Holds BaasConnector.Ledger.Placement BaasConnector.Ledger.Adjustments
open BaasConnector.Ledger.Receipts BaasConnector.Ledger.ChartOfAccounts
open BaasConnector.Ledger.Invariants BaasConnector.Ledger.Counters BaasConnector.Ledger.Books

inductive Operation
  | openCustomerAccounts (availableId blockedId customerAccountId : String)
  | post (mint : Mint) (input : PostTransactionInput)
  | commitPending (mint : Mint) (pendingTransactionId : String) (options : ResolveOptions)
  | voidPending (mint : Mint) (pendingTransactionId : String) (options : ResolveOptions)

/-- What an operation leaves in the store, which undoes nothing when it fails. -/
def Operation.perform (s : LedgerStore) : Operation → LedgerStore
  | .openCustomerAccounts availableId blockedId customerAccountId =>
    ChartOfAccounts.openCustomerAccounts s availableId blockedId customerAccountId
  | .post mint input => ((Engine.post mint input).eval answer s).2
  | .commitPending mint id options => ((Engine.commitPending mint id options).eval answer s).2
  | .voidPending mint id options => ((Engine.voidPending mint id options).eval answer s).2

def FreshTransaction (s : LedgerStore) (id : String) : Prop := id ≠ "" ∧ s.transactions.get id = none

/-- The ids that an operation gives out are not in use. The id that a posting
asks for itself matters only if the posting is not a replay. -/
def Operation.Fresh (s : LedgerStore) : Operation → Prop
  | .openCustomerAccounts availableId blockedId _ =>
    availableId ≠ blockedId ∧ s.accounts.get availableId = none ∧ s.accounts.get blockedId = none
  | .post mint input => s.findByIdempotencyKey input.idempotencyKey = none →
    FreshTransaction s (input.id.getD mint.transactionId)
  | .commitPending mint _ _ | .voidPending mint _ _ => FreshTransaction s mint.transactionId

instance (s : LedgerStore) (id : String) : Decidable (FreshTransaction s id) :=
  inferInstanceAs (Decidable (id ≠ "" ∧ s.transactions.get id = none))

instance (s : LedgerStore) : (op : Operation) → Decidable (op.Fresh s)
  | .openCustomerAccounts availableId blockedId _ =>
    inferInstanceAs (Decidable (availableId ≠ blockedId ∧ s.accounts.get availableId = none ∧
      s.accounts.get blockedId = none))
  | .post mint input =>
    inferInstanceAs (Decidable (s.findByIdempotencyKey input.idempotencyKey = none →
      FreshTransaction s (input.id.getD mint.transactionId)))
  | .commitPending mint _ _ | .voidPending mint _ _ =>
    inferInstanceAs (Decidable (FreshTransaction s mint.transactionId))

def performAll (s : LedgerStore) : List Operation → LedgerStore
  | [] => s
  | op :: ops => performAll (op.perform s) ops

def FreshAll (s : LedgerStore) : List Operation → Prop
  | [] => True
  | op :: ops => op.Fresh s ∧ FreshAll (op.perform s) ops

instance decidableFreshAll (s : LedgerStore) (ops : List Operation) : Decidable (FreshAll s ops) :=
  match ops with
  | [] => .isTrue trivial
  | op :: ops =>
    have := decidableFreshAll (op.perform s) ops
    inferInstanceAs (Decidable (op.Fresh s ∧ FreshAll (op.perform s) ops))

section Engine

variable {α β : Type} {s : LedgerStore}

/-- A program that has written nothing by the time it fails. -/
def FailsClean (p : StoreProg α) : Prop := ∀ s, p.eval answer s = runExclusive p s

theorem FailsClean.read {q : StoreCall} {k : Except LedgerThrown (StoreAnswer q) → StoreProg α}
    (hread : ∀ s, (answer q s).2 = s) (hk : ∀ r, FailsClean (k r)) : FailsClean (.call q k) := by
  intro s
  have hs := hk (answer q s).1 s
  rw [runExclusive] at hs ⊢
  rw [Prog.eval, hread]
  exact hs

theorem FailsClean.throw (e : LedgerThrown) : FailsClean (.throw e : StoreProg α) := fun _ => rfl

theorem FailsClean.ofExcept (r : Except LedgerThrown β) {f : β → StoreProg α}
    (hf : ∀ b, FailsClean (f b)) : FailsClean ((Prog.ofExcept r).bind f) := by
  cases r with
  | ok b => exact hf b
  | error e => exact FailsClean.throw e

theorem post_failsClean (mint : Mint) (input : PostTransactionInput) :
    FailsClean (post mint input) := by
  unfold post
  apply FailsClean.read fun _ => rfl
  intro existing
  apply FailsClean.ofExcept
  intro existing
  cases existing with
  | some existing => exact fun _ => rfl
  | none =>
    apply FailsClean.ofExcept
    intro debits
    apply FailsClean.read fun _ => rfl
    intro accounts
    apply FailsClean.ofExcept
    intro accounts
    apply FailsClean.ofExcept
    intro _
    apply FailsClean.ofExcept
    intro built s
    rfl

theorem resolve_failsClean (mint : Mint) (id : String) (options : ResolveOptions) (commit : Bool) :
    FailsClean (resolvePending mint id options commit) := by
  unfold resolvePending
  apply FailsClean.read fun _ => rfl
  intro existing
  apply FailsClean.ofExcept
  intro existing
  cases existing with
  | some existing => exact fun _ => rfl
  | none =>
    apply FailsClean.read fun _ => rfl
    intro found
    apply FailsClean.ofExcept
    intro found
    cases found with
    | none => exact FailsClean.throw _
    | some pending =>
      dsimp only
      split
      · exact FailsClean.throw _
      · apply FailsClean.read fun _ => rfl
        intro entries
        apply FailsClean.ofExcept
        intro entries
        apply FailsClean.read fun _ => rfl
        intro accounts
        apply FailsClean.ofExcept
        intro accounts
        apply FailsClean.ofExcept
        intro built s
        rfl

end Engine

variable {s : LedgerStore}

theorem assertBalanced_balanced {inputs : List LedgerEntryInput} {debits : Int}
    (h : assertBalanced inputs = .ok debits) :
    sumDirection .DEBIT inputs = sumDirection .CREDIT inputs := by
  unfold assertBalanced at h
  split at h
  · cases h
  · split at h
    · cases h
    · dsimp only at h
      split at h
      · next heq => exact heq
      · cases h

theorem performPost_sound {mint : Mint} {input : PostTransactionInput} (h : Sound s)
    (hfresh : s.findByIdempotencyKey input.idempotencyKey = none →
      s.transactions.get (input.id.getD mint.transactionId) = none) :
    Sound (runExclusive (Engine.post mint input) s).2 := by
  rw [post_run]
  cases hk : s.findByIdempotencyKey input.idempotencyKey with
  | some existing => exact h
  | none =>
    cases hb : assertBalanced input.entries with
    | error e => exact h
    | ok debits =>
      dsimp only
      cases assertAccountsExist input.entries (s.lockAccounts (lockOrder input.entries)) with
      | error e => exact h
      | ok _ =>
        dsimp only
        cases hp : postEntries mint input debits s with
        | error e => exact h
        | ok built =>
          obtain ⟨entries, after⟩ := built
          have hinputs := buildEntries_inputs _ _ _ _ hp
          have hphase := buildEntries_phase _ _ _ _ hp
          have happly := (deltas_of_buildEntries _ _ _ _ _ _ _ _ _ hp).1
          refine h.post ⟨hfresh hk, hinputs, ?_, (assertBalanced_ok hb).2,
            buildEntries_owned _ _ _ _ hp, ?_⟩ happly hphase ?_
          · rw [EntriesBalanced, sumOf, sumOf, hinputs]
            exact assertBalanced_balanced hb
          · intro hstatus e he
            rw [hphase e he]
            cases hposting : input.phase with
            | PENDING => rfl
            | POSTED => simp [postedTransaction, hposting] at hstatus
          · intro hposting
            simp [postedTransaction, hposting]

theorem performResolve_sound {mint : Mint} {id : String} {options : ResolveOptions} {commit : Bool}
    (h : Sound s) (hfresh : s.transactions.get mint.transactionId = none) :
    Sound (runExclusive (resolvePending mint id options commit) s).2 := by
  rw [resolvePending_run]
  cases s.findByIdempotencyKey options.idempotencyKey with
  | some existing => exact h
  | none =>
    cases hp : s.transactions.get id with
    | none => exact h
    | some pending =>
      dsimp only
      split
      · exact h
      · next hpending =>
        rw [not_not] at hpending
        cases hb : resolveEntries mint id options commit pending s with
        | error e => exact h
        | ok built => exact h.resolve hp hpending hfresh hb

theorem createFrom_sound {id : String} {t : AccountTemplate} (h : Sound s)
    (hfree : s.accounts.get id = none) : Sound (createFrom s id t) := by
  obtain ⟨hentries, htransactions⟩ := createFrom_entries s id t
  have hget : ∀ {k a}, (ChartOfAccounts.createFrom s id t).accounts.get k = some a →
      (k = id ∧ a = t.account id) ∨ s.accounts.get k = some a := by
    intro k a ha
    by_cases hk : k = id
    · subst hk
      obtain hnone | hsome := createFrom_get_self (t := t) hfree
      · rw [hnone] at ha
        cases ha
      · rw [hsome] at ha
        exact .inl ⟨rfl, (Option.some.inj ha).symm⟩
    · rw [createFrom_get_of_ne hk] at ha
      exact .inr ha
  have hkept : ∀ {k}, (s.accounts.get k).isSome →
      ((ChartOfAccounts.createFrom s id t).accounts.get k).isSome := by
    intro k hk
    have hne : k ≠ id := fun he => by rw [he, hfree] at hk; cases hk
    rwa [createFrom_get_of_ne hne]
  have hstatus : ∀ k, holdStatus (ChartOfAccounts.createFrom s id t) k = holdStatus s k := by
    intro k
    rw [holdStatus, htransactions, holdStatus]
  have hstanding : ∀ phase direction k, standing (ChartOfAccounts.createFrom s id t) phase direction k =
      standing s phase direction k := by
    intro phase direction k
    unfold standing
    rw [hentries]
    simp only [hstatus]
  refine ⟨⟨?_, ?_, ?_, ?_⟩, ?_, ?_⟩
  · intro k es hk
    rw [hentries] at hk
    rw [htransactions]
    exact h.stored k es hk
  · intro k es hk
    rw [hentries] at hk
    exact h.balanced k es hk
  · intro k es hk e he
    rw [hentries] at hk
    obtain ⟨hid, hpos, hacc⟩ := h.owned k es hk e he
    exact ⟨hid, hpos, hkept hacc⟩
  · intro k es hk hpending
    rw [hentries] at hk
    rw [hstatus] at hpending
    exact h.held k es hk hpending
  · intro k a ha phase direction
    rw [hstanding]
    obtain ⟨rfl, rfl⟩ | ha := hget ha
    · have hzero : standing s phase direction k = 0 := by
        apply Table.total_zero
        intro k' es hk'
        have hnil : ∀ p, (es.filter p).filter (·.accountId = k) = [] := by
          intro p
          apply List.filter_eq_nil_iff.mpr
          intro e he
          have hacc := (h.owned k' es hk' e (List.mem_of_mem_filter he)).2.2
          simp only [decide_eq_true_eq]
          rintro rfl
          rw [hfree] at hacc
          cases hacc
        unfold share
        split
        · rw [sumOn, hnil]
          rfl
        · rfl
      rw [hzero]
      cases phase <;> cases direction <;> rfl
    · exact h.counters k a ha phase direction
  · intro k a ha
    obtain ⟨rfl, rfl⟩ | ha := hget ha
    · unfold violatesOverdraftGuard computeBalances AccountTemplate.account
      cases t.allowsNegative <;> cases normalBalanceFor t.type <;> rfl
    · exact h.guarded k a ha

theorem perform_sound {op : Operation} (h : Sound s) (hfresh : op.Fresh s) : Sound (op.perform s) := by
  cases op with
  | openCustomerAccounts availableId blockedId customerAccountId =>
    obtain ⟨hne, havailable, hblocked⟩ := hfresh
    apply createFrom_sound (createFrom_sound h havailable)
    rw [createFrom_get_of_ne (Ne.symm hne)]
    exact hblocked
  | post mint input =>
    rw [Operation.perform, post_failsClean]
    exact performPost_sound h fun hk => (hfresh hk).2
  | commitPending mint id options =>
    rw [Operation.perform, commitPending, resolve_failsClean]
    exact performResolve_sound h hfresh.2
  | voidPending mint id options =>
    rw [Operation.perform, voidPending, resolve_failsClean]
    exact performResolve_sound h hfresh.2

theorem performAll_sound {ops : List Operation} (h : Sound s) (hfresh : FreshAll s ops) :
    Sound (performAll s ops) := by
  induction ops generalizing s with
  | nil => exact h
  | cons op ops ih => exact ih (perform_sound h hfresh.1) hfresh.2

theorem createAll_sound {seeds : List (String × AccountTemplate)} (h : Sound s)
    (hids : (seeds.map Prod.fst).Nodup) (hfree : ∀ seed ∈ seeds, s.accounts.get seed.1 = none) :
    Sound (createAll s seeds) := by
  induction seeds generalizing s with
  | nil => exact h
  | cons seed seeds ih =>
    rw [List.map_cons, List.nodup_cons] at hids
    apply ih (createFrom_sound h (hfree seed List.mem_cons_self)) hids.2
    intro other hother
    have hne : other.1 ≠ seed.1 := fun he => hids.1 (List.mem_map.mpr ⟨other, hother, he⟩)
    rw [createFrom_get_of_ne hne]
    exact hfree other (List.mem_cons_of_mem _ hother)

theorem empty_sound : Sound .empty := by
  refine ⟨⟨?_, ?_, ?_, ?_⟩, ?_, ?_⟩ <;> intro k x h <;> cases h

theorem newStore_sound {newId : Nat → String}
    (hids : ((List.range singletonAccounts.length).map newId).Nodup) : Sound (newStore newId) := by
  apply createAll_sound empty_sound
  · rw [List.map_fst_zip (by simp)]
    exact hids
  · intro seed _
    rfl

end BaasConnector.Ledger.Reachable
